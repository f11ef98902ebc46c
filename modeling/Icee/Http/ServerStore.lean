import Icee.Core.CacheStore
import Icee.Http.Server

set_option relaxedAutoImplicit false
set_option autoImplicit false

/-!
# The request handler over a store

The handler of `Icee.Http.Server` works on linked nodes in a heap. Here it is stated over a
`Store`, with the bytes of every answer spelled out, and shown to be followed by the former. What
a request can come to is then listed once, as an inductive relation, and everything later is an
analysis of its cases.

## Main definitions

* `Icee.Http.Spec.beginRequest`, `Icee.Http.Spec.finish`, `Icee.Http.Spec.handleRequest` — the
  handler over a store.
* `Icee.Http.Spec.Begins` — what a request can come to.

## Main results

* `Icee.Http.beginRequest_spec`, `Icee.Http.handleRequest_spec` — the handler over the linked
  nodes follows the one over the store.
* `Icee.Http.Spec.beginRequest_cases`, `Icee.Http.handleRequest_cases` — the inversion of a
  request.
-/

namespace Icee.Http

/-! ## The handler over a store -/

namespace Spec

/-- `beginRequest` over a store, with the bytes of the answers spelled out. -/
def beginRequest (servingDirectory : Bytes) (fs : FileSystem) (frame : Bytes) (s : Store) :
    Except Fault (Store × Begun × Bool) :=
  match Request.ofString frame with
  | .error fault => .error fault
  | .ok request =>
    let path := servingDirectory ++ request.url
    if ¬ request.isValid then
      .ok (s, .answered (answerHead responseBadRequest true 0 none) true, false)
    else if isCgiRequest path then
      .ok (s, .cgi, false)
    else match fs path with
      | .absent => .ok (s, .answered (answerHead responseNotFound true 0 none) true, false)
      | .directory => .error .filesystemError
      | .regular content =>
        let head := answerHead responseOk request.shouldClose content.length (mimeOf path)
        match s.lookup path with
        | some data => .ok ((s.load path).1, .answered (head ++ data) request.shouldClose, false)
        | none =>
          let body := if request.method = some .head then [] else content
          .ok (s, .missed path (head ++ body) content request.shouldClose, content = [])

/-- What is left to do after `beginRequest`, and the reply. -/
def finish : Store × Begun × Bool → Store × Pipeline.Reply Bytes × Bool
  | (s, .cgi, past) => (s, .silent, past)
  | (s, .answered responseBuf noMoreParse, past) => (s, .answer responseBuf noMoreParse, past)
  | (s, .missed path responseBuf cacheBuf noMoreParse, past) =>
    ((s.insert path cacheBuf).1, .answer responseBuf noMoreParse, past)

/-- The effect of a request on the world. -/
def record (v : World Store) :
    Store × Pipeline.Reply Bytes × Bool → World Store × Pipeline.Reply Bytes
  | (s, reply, past) =>
    ({ cache := s, handled := v.handled + 1, pastTheEnd := v.pastTheEnd || past }, reply)

/-- `handleRequest` over a store. -/
def handleRequest (servingDirectory : Bytes) (fileSystem : ℕ → FileSystem) :
    Pipeline.Handler UInt8 Bytes Fault (World Store) := fun frame v =>
  ((beginRequest servingDirectory (fileSystem v.handled) frame v.cache).map finish).map (record v)

end Spec

/-- **One request up to `TryInsert`**: the nodes follow the store.

**Proof sketch.** The two definitions test the same things in the same order, and a case is taken
for each test. The cache is read in the last one only, where `TryLoad` does to the nodes what
`Store.load` does to the entries; a load that misses leaves both as they were. -/
lemma beginRequest_spec {c : Cache} {s : Store} (h : c.Refines s) (servingDirectory : Bytes)
    (fs : FileSystem) (now : UInt64) (frame : Bytes) :
    match Spec.beginRequest servingDirectory fs frame s with
    | .error fault => beginRequest servingDirectory fs now frame c = .error fault
    | .ok (s', begun, past) => ∃ c', c'.Refines s' ∧
        beginRequest servingDirectory fs now frame c = .ok (c', begun, past) := by
  unfold Spec.beginRequest beginRequest
  cases hparse : Request.ofString frame with
  | error fault => rfl
  | ok request =>
    simp only [bind, Except.bind]
    by_cases hvalid : request.isValid = true
    · simp only [hvalid, not_true_eq_false, if_false]
      by_cases hcgi : isCgiRequest (servingDirectory ++ request.url) = true
      · simp only [hcgi, if_true]
        exact ⟨c, h, rfl⟩
      · simp only [hcgi]
        cases hentry : fs (servingDirectory ++ request.url) with
        | absent =>
          have hexists : isFileExist fs (servingDirectory ++ request.url) = false := by
            simp [isFileExist, hentry]
          obtain ⟨r, hr, hbytes⟩ := Response.make_none fs responseNotFound true
          refine ⟨c, h, ?_⟩
          simp [hexists, Response.make404Response, hr, hbytes, pure, Except.pure]
        | directory =>
          have hexists : isFileExist fs (servingDirectory ++ request.url) = true := by
            simp [isFileExist, hentry]
          simp [hexists, Response.make200Response_directory hentry]
        | regular content =>
          have hexists : isFileExist fs (servingDirectory ++ request.url) = true := by
            simp [isFileExist, hentry]
          obtain ⟨r, hr, hurl, hdata⟩ := Response.make200Response_regular hentry request.shouldClose
          obtain ⟨c', hload, hc'⟩ := h.tryLoad (servingDirectory ++ request.url) [] now
          obtain ⟨method, hmethod⟩ : ∃ method, request.method = some method := by
            rcases Request.method_of_valid hparse hvalid with hm | hm
            · exact ⟨_, hm⟩
            · exact ⟨_, hm⟩
          have hget : request.getMethod = .ok method := by simp [Request.getMethod, hmethod]
          simp only [hexists, not_true_eq_false, if_false, hr, hload, hget,
            Response.serialize_regular hurl hentry, hdata]
          cases hlookup : s.lookup (servingDirectory ++ request.url) with
          | some data =>
            refine ⟨c', hc', ?_⟩
            simp [pure, Except.pure]
          | none =>
            refine ⟨c', by rwa [Store.load_of_none hlookup] at hc', ?_⟩
            by_cases hhead : method = .head <;>
              simp [loadFile_regular hentry, hmethod, hhead, pure, Except.pure]
    · obtain ⟨r, hr, hbytes⟩ := Response.make_none fs responseBadRequest true
      simp only [hvalid]
      refine ⟨c, h, ?_⟩
      simp [Response.make400Response, hr, hbytes, pure, Except.pure]

/-- The world with its nodes and the world with its store. -/
structure World.Rel (w : World Cache) (v : World Store) : Prop where
  cache : w.cache.Refines v.cache
  handled : w.handled = v.handled
  pastTheEnd : w.pastTheEnd = v.pastTheEnd

/-- **One request**: the handler over the nodes follows the one over the store. -/
lemma handleRequest_spec (site : Site) (frame : Bytes) (w : World Cache) (v : World Store)
    (h : w.Rel v) :
    Pipeline.Matches World.Rel (handleRequest site frame w)
      (Spec.handleRequest site.servingDirectory site.fileSystem frame v) := by
  have hbegin := beginRequest_spec h.cache site.servingDirectory (site.fileSystem v.handled)
    (site.clock w.handled) frame
  unfold handleRequest Spec.handleRequest
  rw [← h.handled] at hbegin ⊢
  cases hspec : Spec.beginRequest site.servingDirectory (site.fileSystem w.handled) frame
      v.cache with
  | error fault =>
    rw [hspec] at hbegin
    dsimp only at hbegin
    simp only [hbegin, bind, Except.bind]
    exact .error fault
  | ok result =>
    obtain ⟨s', begun, past⟩ := result
    rw [hspec] at hbegin
    obtain ⟨c', hc', hbegin⟩ := hbegin
    simp only [hbegin, bind, Except.bind]
    have hrecord : ∀ {c : Cache} {s : Store}, c.Refines s →
        World.Rel ⟨c, w.handled + 1, w.pastTheEnd || past⟩
          ⟨s, v.handled + 1, v.pastTheEnd || past⟩ := fun hc =>
      ⟨hc, congrArg (· + 1) h.handled, congrArg (· || past) h.pastTheEnd⟩
    cases begun with
    | cgi => exact .ok _ (hrecord hc')
    | answered responseBuf noMoreParse => exact .ok _ (hrecord hc')
    | missed path responseBuf cacheBuf noMoreParse =>
      obtain ⟨c'', hinsert, hc''⟩ :=
        hc'.tryInsert site.allocator path cacheBuf (site.clock w.handled)
      simp only [finishRequest, hinsert, bind, Except.bind]
      exact .ok _ (hrecord hc'')

/-! ## What a request can come to -/

/-- The frame is a valid request for a path that contains `cgi_bin`. -/
def asksForCgi (servingDirectory frame : Bytes) : Bool :=
  match Request.ofString frame with
  | .error _ => false
  | .ok r => r.isValid && isCgiRequest (servingDirectory ++ r.url)

namespace Spec

/-- Everything that can become of a request before `TryInsert`, over a store. -/
inductive Begins (servingDirectory : Bytes) (fs : FileSystem) (frame : Bytes) (s : Store) :
    Except Fault (Store × Begun × Bool) → Prop
  | unparsed {fault : Fault} (parse : Request.ofString frame = .error fault) :
    Begins servingDirectory fs frame s (.error fault)
  | badRequest {r : Request} (parse : Request.ofString frame = .ok r) (valid : r.isValid = false) :
    Begins servingDirectory fs frame s
      (.ok (s, .answered (answerHead responseBadRequest true 0 none) true, false))
  | cgi {r : Request} (parse : Request.ofString frame = .ok r) (valid : r.isValid = true)
    (cgi : isCgiRequest (servingDirectory ++ r.url) = true) :
    Begins servingDirectory fs frame s (.ok (s, .cgi, false))
  | notFound {r : Request} (parse : Request.ofString frame = .ok r) (valid : r.isValid = true)
    (cgi : isCgiRequest (servingDirectory ++ r.url) = false)
    (entry : fs (servingDirectory ++ r.url) = .absent) :
    Begins servingDirectory fs frame s
      (.ok (s, .answered (answerHead responseNotFound true 0 none) true, false))
  | directory {r : Request} (parse : Request.ofString frame = .ok r) (valid : r.isValid = true)
    (cgi : isCgiRequest (servingDirectory ++ r.url) = false)
    (entry : fs (servingDirectory ++ r.url) = .directory) :
    Begins servingDirectory fs frame s (.error .filesystemError)
  | hit {r : Request} {content data : Bytes} (parse : Request.ofString frame = .ok r)
    (valid : r.isValid = true) (cgi : isCgiRequest (servingDirectory ++ r.url) = false)
    (entry : fs (servingDirectory ++ r.url) = .regular content)
    (cached : s.lookup (servingDirectory ++ r.url) = some data) :
    Begins servingDirectory fs frame s
      (.ok ((s.load (servingDirectory ++ r.url)).1,
        .answered (answerHead responseOk r.shouldClose content.length
          (mimeOf (servingDirectory ++ r.url)) ++ data) r.shouldClose, false))
  | miss {r : Request} {content : Bytes} (parse : Request.ofString frame = .ok r)
    (valid : r.isValid = true) (cgi : isCgiRequest (servingDirectory ++ r.url) = false)
    (entry : fs (servingDirectory ++ r.url) = .regular content)
    (cached : s.lookup (servingDirectory ++ r.url) = none) :
    Begins servingDirectory fs frame s
      (.ok (s, .missed (servingDirectory ++ r.url)
        (answerHead responseOk r.shouldClose content.length
          (mimeOf (servingDirectory ++ r.url)) ++ if r.method = some .head then [] else content)
        content r.shouldClose, decide (content = [])))

/-- **The inversion of a request.** -/
lemma beginRequest_cases (servingDirectory : Bytes) (fs : FileSystem) (frame : Bytes)
    (s : Store) :
    Begins servingDirectory fs frame s (beginRequest servingDirectory fs frame s) := by
  unfold beginRequest
  cases hparse : Request.ofString frame with
  | error fault => exact .unparsed hparse
  | ok r =>
    cases hvalid : r.isValid with
    | false => simpa [hvalid] using Begins.badRequest hparse hvalid
    | true =>
      cases hcgi : isCgiRequest (servingDirectory ++ r.url) with
      | true => simpa [hvalid, hcgi] using Begins.cgi hparse hvalid hcgi
      | false =>
        cases hentry : fs (servingDirectory ++ r.url) with
        | absent =>
          simpa [hvalid, hcgi, hentry] using Begins.notFound hparse hvalid hcgi hentry
        | directory =>
          simpa [hvalid, hcgi, hentry] using Begins.directory hparse hvalid hcgi hentry
        | regular content =>
          cases hlookup : s.lookup (servingDirectory ++ r.url) with
          | some data =>
            simpa [hvalid, hcgi, hentry, hlookup] using
              Begins.hit hparse hvalid hcgi hentry hlookup
          | none =>
            simpa [hvalid, hcgi, hentry, hlookup] using
              Begins.miss hparse hvalid hcgi hentry hlookup

/-- Only the unimplemented branch is silent. -/
lemma asksForCgi_of_silent {servingDirectory frame : Bytes} {fileSystem : ℕ → FileSystem}
    {v v' : World Store}
    (h : handleRequest servingDirectory fileSystem frame v = .ok (v', .silent)) :
    asksForCgi servingDirectory frame = true := by
  have hcases := beginRequest_cases servingDirectory (fileSystem v.handled) frame v.cache
  unfold handleRequest at h
  generalize beginRequest servingDirectory (fileSystem v.handled) frame v.cache = outcome
    at h hcases
  cases hcases with
  | cgi parse valid cgi => simp [asksForCgi, parse, valid, cgi]
  | _ => cases h

end Spec

/-- The cache of the world is described by a store, as every cache that calls have made is. -/
def World.Sound (w : World Cache) : Prop := ∃ s, w.cache.Refines s

/-- A request over the nodes, by what it does over the store. -/
lemma handleRequest_eq (site : Site) (frame : Bytes) {w : World Cache} {s : Store}
    (h : w.cache.Refines s) :
    match (Spec.beginRequest site.servingDirectory (site.fileSystem w.handled) frame s).map
      Spec.finish with
    | .error fault => handleRequest site frame w = .error fault
    | .ok (s', reply, past) => ∃ c', c'.Refines s' ∧ handleRequest site frame w =
        .ok (⟨c', w.handled + 1, w.pastTheEnd || past⟩, reply) := by
  have hmatch := handleRequest_spec site frame w ⟨s, w.handled, w.pastTheEnd⟩ ⟨h, rfl, rfl⟩
  unfold Spec.handleRequest at hmatch
  dsimp only at hmatch
  cases hspec : (Spec.beginRequest site.servingDirectory (site.fileSystem w.handled) frame s).map
      Spec.finish with
  | error fault =>
    rw [hspec] at hmatch
    cases hresult : handleRequest site frame w with
    | error fault' => rw [hresult] at hmatch; cases hmatch; rfl
    | ok result => rw [hresult] at hmatch; cases hmatch
  | ok outcome =>
    obtain ⟨s', reply, past⟩ := outcome
    rw [hspec] at hmatch
    cases hresult : handleRequest site frame w with
    | error fault => rw [hresult] at hmatch; cases hmatch
    | ok result =>
      obtain ⟨⟨c', handled, pastTheEnd⟩, reply'⟩ := result
      rw [hresult] at hmatch
      cases hmatch with
      | ok reply hrel =>
        obtain ⟨hc', rfl, rfl⟩ := hrel
        exact ⟨c', hc', rfl⟩

/-- **The inversion of a request** over the nodes. -/
lemma handleRequest_cases (site : Site) (frame : Bytes) {w : World Cache} {s : Store}
    (h : w.cache.Refines s) :
    ∃ outcome, Spec.Begins site.servingDirectory (site.fileSystem w.handled) frame s outcome ∧
      match outcome.map Spec.finish with
      | .error fault => handleRequest site frame w = .error fault
      | .ok (s', reply, past) => ∃ c', c'.Refines s' ∧ handleRequest site frame w =
          .ok (⟨c', w.handled + 1, w.pastTheEnd || past⟩, reply) :=
  ⟨_, Spec.beginRequest_cases _ _ _ _, handleRequest_eq site frame h⟩

/-- What a request that has been begun came to. -/
lemma beginRequest_ok {servingDirectory frame : Bytes} {fs : FileSystem} {now : UInt64}
    {c c' : Cache} {s : Store} {begun : Begun} {past : Bool} (h : c.Refines s)
    (heq : beginRequest servingDirectory fs now frame c = .ok (c', begun, past)) :
    ∃ s', c'.Refines s' ∧ Spec.Begins servingDirectory fs frame s (.ok (s', begun, past)) := by
  have hcases := Spec.beginRequest_cases servingDirectory fs frame s
  have hspec := beginRequest_spec h servingDirectory fs now frame
  cases hresult : Spec.beginRequest servingDirectory fs frame s with
  | error fault =>
    rw [hresult] at hspec
    rw [show beginRequest servingDirectory fs now frame c = .error fault from hspec] at heq
    cases heq
  | ok result =>
    obtain ⟨s', begun', past'⟩ := result
    rw [hresult] at hspec hcases
    obtain ⟨c'', hc'', hbegin⟩ := hspec
    rw [hbegin] at heq
    cases heq
    exact ⟨s', hc'', hcases⟩

/-- What a request that has been handled came to. -/
lemma handleRequest_ok {site : Site} {frame : Bytes} {w w' : World Cache} {s : Store}
    {reply : Pipeline.Reply Bytes} (h : w.cache.Refines s)
    (heq : handleRequest site frame w = .ok (w', reply)) :
    ∃ outcome s' past,
      Spec.Begins site.servingDirectory (site.fileSystem w.handled) frame s (.ok outcome) ∧
      Spec.finish outcome = (s', reply, past) ∧ w'.cache.Refines s' ∧
      w'.pastTheEnd = (w.pastTheEnd || past) := by
  obtain ⟨outcome, hcases, hout⟩ := handleRequest_cases site frame h
  cases outcome with
  | error fault =>
    rw [show handleRequest site frame w = .error fault from hout] at heq
    cases heq
  | ok outcome =>
    cases hfinish : Spec.finish outcome with
    | mk s' result =>
      obtain ⟨reply', past⟩ := result
      rw [show (Except.ok outcome : Except Fault _).map Spec.finish = .ok (Spec.finish outcome)
        from rfl, hfinish] at hout
      obtain ⟨c', hc', hresult⟩ := hout
      rw [hresult] at heq
      cases heq
      exact ⟨outcome, s', past, hcases, hfinish, hc', rfl⟩

/-- A request leaves a cache that is described by a store. -/
lemma World.Sound.handleRequest {site : Site} {frame : Bytes} {w w' : World Cache}
    {reply : Pipeline.Reply Bytes} (h : w.Sound)
    (heq : Http.handleRequest site frame w = .ok (w', reply)) : w'.Sound := by
  obtain ⟨s, hs⟩ := h
  obtain ⟨_, s', _, _, _, hs', _⟩ := handleRequest_ok hs heq
  exact ⟨s', hs'⟩

/-! ## A small site -/

/-- A directory `www` with a page, an empty page, a subdirectory and a page of a script. -/
def sampleFiles : FileSystem := fun path =>
  if path = bytes "www/a.html" then .regular (bytes "hello")
  else if path = bytes "www/empty.html" then .regular []
  else if path = bytes "www/sub" then .directory
  else if path = bytes "www/cgi_bin/x" then .regular (bytes "x")
  else .absent

/-- The site of that directory. -/
def sampleSite : Site where
  servingDirectory := bytes "www"
  fileSystem _ := sampleFiles
  allocator := Allocator.bump
  clock _ := 0

/-- The world before the first request. -/
def sampleWorld : World Cache where
  cache := Cache.make Allocator.bump initCacheSize 0 0
  handled := 0
  pastTheEnd := false

/-- The cache before the first request. -/
lemma sampleWorld_reachable : sampleWorld.cache.Reachable Allocator.bump :=
  ⟨initCacheSize, 0, 0, [], [], rfl⟩

/-- A request for the page that asks to keep the connection. -/
def sampleGet : Bytes := bytes "GET /a.html HTTP/1.1\r\nConnection:keep-alive\r\n\r\n"

/-- A request for the page that does not. -/
def sampleGetClose : Bytes := bytes "GET /a.html HTTP/1.1\r\n\r\n"

end Icee.Http
