import Icee.Http.Client
import Icee.Http.ServerStore

set_option relaxedAutoImplicit false
set_option autoImplicit false

/-!
# The cache and the files

The body of an answer comes from the cache if the resource is there, while its head is always
made from the file. This file says when the two fit together: as long as the files do not change
every cached entry is the content of its file, so that answers to `GET` are right; but a body from
the cache is sent even for `HEAD`, and when files do change a stale body gets a new length.

## Main definitions

* `Icee.Http.Coherent` — every entry of the store is the content of its file.
* `Icee.Http.Served` — the worlds that a server can get to.
* `Icee.Http.answerTo` — the bytes written for a request.

## Main results

* `Icee.Http.Served.coherent` — with files that do not change, the cache stays coherent.
* `Icee.Http.head_answer_iff` — when a `HEAD` answer is the `GET` answer without its body.
* `Icee.Http.framed_iff` — when `Content-Length` is the length of the body, along whole runs.
-/

namespace Icee.Http

open Pipeline

/-! ## Coherence -/

/-- Every entry of the store is the content of a regular file that is served. -/
def Coherent (fs : FileSystem) (s : Store) : Prop :=
  ∀ path data, (path, data) ∈ s.entries →
    fs path = .regular data ∧ isCgiRequest path = false

/-- Loading keeps the store coherent. -/
lemma Coherent.load {fs : FileSystem} {s : Store} (h : Coherent fs s) (id : Bytes) :
    Coherent fs (s.load id).1 :=
  fun path data hmem => h path data (Store.mem_of_mem_load hmem)

/-- Inserting the content of a file keeps the store coherent. -/
lemma Coherent.insert {fs : FileSystem} {s : Store} (h : Coherent fs s) {path content : Bytes}
    (hfile : fs path = .regular content) (hcgi : isCgiRequest path = false) :
    Coherent fs (s.insert path content).1 := by
  intro path' data hmem
  rcases Store.mem_of_mem_insert hmem with hmem | heq
  · exact h path' data hmem
  · obtain ⟨rfl, rfl⟩ := Prod.mk.inj heq
    exact ⟨hfile, hcgi⟩

/-- A request keeps the store coherent with the files it meets. -/
lemma Coherent.of_begins {servingDirectory frame : Bytes} {fs : FileSystem} {s s' : Store}
    {outcome : Store × Begun × Bool} {reply : Reply Bytes} {past : Bool} (h : Coherent fs s)
    (hbegins : Spec.Begins servingDirectory fs frame s (.ok outcome))
    (hfinish : Spec.finish outcome = (s', reply, past)) : Coherent fs s' := by
  cases hbegins with
  | badRequest parse valid => cases hfinish; exact h
  | cgi parse valid cgi => cases hfinish; exact h
  | notFound parse valid cgi entry => cases hfinish; exact h
  | hit parse valid cgi entry cached => cases hfinish; exact h.load _
  | miss parse valid cgi entry cached => cases hfinish; exact h.insert entry cgi

/-- The cache of the world is described by a coherent store. -/
def World.Coherent (fs : FileSystem) (w : World Cache) : Prop :=
  ∃ s, w.cache.Refines s ∧ Http.Coherent fs s

/-- The worlds that a server can get to: it starts with an empty cache of some capacity, and then
`ParseHttpRequest` is called for any events on any connections. -/
inductive Served (site : Site) : World Cache → Prop
  | start (capacity : Int32) (now₁ now₂ : UInt64) :
    Served site ⟨Cache.make site.allocator capacity now₁ now₂, 0, false⟩
  | handled {conn : ClientConn Cache} (event : List RecvResult) :
    Served site conn.shared → Served site (parseHttpRequest site event conn).shared

/-- **With files that do not change, the cache stays coherent.** -/
lemma Served.coherent {site : Site} {fs : FileSystem} (hfiles : ∀ n, site.fileSystem n = fs)
    {w : World Cache} (h : Served site w) : w.Coherent fs := by
  induction h with
  | start capacity now₁ now₂ =>
    exact ⟨_, Cache.refines_make site.allocator capacity now₁ now₂, (nofun)⟩
  | @handled conn event _ ih =>
    by_cases hstatus : conn.status = .serving
    · obtain ⟨readBuffer, heq | heq⟩ := parseHttpRequest_cases site event hstatus
      · rw [heq]
        exact ih
      · rw [heq]
        refine serve_shared (show crlfCrlf ≠ [] by decide) (World.Coherent fs) ?_ hstatus ih
        rintro frame w w' reply ⟨s, hs, hcoherent⟩ hhandle
        obtain ⟨outcome, s', past, hbegins, hfinish, hs', -⟩ := handleRequest_ok hs hhandle
        rw [hfiles] at hbegins
        exact ⟨s', hs', hcoherent.of_begins hbegins hfinish⟩
    · rw [parseHttpRequest_of_ended site event hstatus]
      exact ih

/-! ## `HEAD` and `GET` -/

/-- The bytes written for a request. -/
def answerTo (site : Site) (w : World Cache) (frame : Bytes) : Bytes :=
  match handleRequest site frame w with
  | .ok (_, .answer responseBuf _) => responseBuf
  | _ => []

section Answer

variable {site : Site} {fs : FileSystem} (hfiles : ∀ n, site.fileSystem n = fs)
  {w : World Cache} {s : Store} (hs : w.cache.Refines s) {frame content : Bytes} {r : Request}
  (hparse : Request.ofString frame = .ok r) (hvalid : r.isValid = true)

include hs hparse hvalid in
/-- Nothing is written for a request for `cgi_bin`. -/
lemma answerTo_cgi (hcgi : isCgiRequest (site.servingDirectory ++ r.url) = true) :
    answerTo site w frame = [] := by
  have hout := handleRequest_eq site frame hs
  simp only [Spec.beginRequest, hparse, hvalid, hcgi, not_true_eq_false, if_false, if_true,
    Except.map, Spec.finish] at hout
  obtain ⟨c', -, heq⟩ := hout
  simp only [answerTo, heq]

include hfiles hs hparse hvalid in
/-- The bytes written for a valid request on a regular file, over a coherent store: the file,
unless the request is a `HEAD` that misses the cache. -/
lemma answerTo_regular (hcoherent : Coherent fs s)
    (hfile : fs (site.servingDirectory ++ r.url) = .regular content)
    (hcgi : isCgiRequest (site.servingDirectory ++ r.url) = false) :
    answerTo site w frame =
      answerHead responseOk r.shouldClose content.length
        (mimeOf (site.servingDirectory ++ r.url)) ++
      if r.method = some .head ∧
        w.cache.mapping.lookup (site.servingDirectory ++ r.url) = none then [] else content := by
  have hout := handleRequest_eq site frame hs
  simp only [Spec.beginRequest, hparse, hvalid, hcgi, hfiles, hfile, not_true_eq_false,
    Bool.false_eq_true, if_false] at hout
  cases hlookup : s.lookup (site.servingDirectory ++ r.url) with
  | some data =>
    rw [hlookup] at hout
    obtain ⟨c', -, heq⟩ := hout
    -- the entry is the content of the file
    have hdata := (hcoherent _ _ (Store.mem_of_lookup hlookup)).1
    rw [hfile] at hdata
    cases hdata
    have hmapped : w.cache.mapping.lookup (site.servingDirectory ++ r.url) ≠ none := by
      rw [Ne, hs.lookup_eq_none, hlookup]
      exact (nofun)
    simp only [answerTo, heq, hmapped, and_false, if_false]
  | none =>
    rw [hlookup] at hout
    obtain ⟨c', -, heq⟩ := hout
    have hmapped : w.cache.mapping.lookup (site.servingDirectory ++ r.url) = none :=
      hs.lookup_eq_none.mpr hlookup
    simp only [answerTo, heq, hmapped, and_true]

end Answer

/-- **`HEAD` and `GET`.** Let two valid requests for a regular file differ in nothing but their
method. Then the answer to `HEAD` is the head of the answer to `GET` and nothing more, exactly if
the resource is not in the cache or the file is empty: on a hit the handler appends the cached
bytes without looking at the method. -/
theorem head_answer_iff {site : Site} {fs : FileSystem} (hfiles : ∀ n, site.fileSystem n = fs)
    {w : World Cache} (hw : Served site w) {headFrame getFrame content : Bytes} {r : Request}
    (hhead : Request.ofString headFrame = .ok r) (hvalid : r.isValid = true)
    (hmethod : r.method = some .head)
    (hget : Request.ofString getFrame = .ok { r with method := some .get })
    (hfile : fs (site.servingDirectory ++ r.url) = .regular content) :
    answerTo site w headFrame = Client.head (answerTo site w getFrame) ↔
      w.cache.mapping.lookup (site.servingDirectory ++ r.url) = none ∨ content = [] := by
  obtain ⟨s, hs, hcoherent⟩ := hw.coherent hfiles
  cases hcgi : isCgiRequest (site.servingDirectory ++ r.url) with
  | true =>
    have hnone : w.cache.mapping.lookup (site.servingDirectory ++ r.url) = none := by
      rw [hs.lookup_eq_none]
      cases hlookup : s.lookup (site.servingDirectory ++ r.url) with
      | none => rfl
      | some data =>
        have := (hcoherent _ _ (Store.mem_of_lookup hlookup)).2
        rw [hcgi] at this
        cases this
    refine iff_of_true ?_ (.inl hnone)
    rw [answerTo_cgi hs hhead hvalid hcgi, answerTo_cgi hs hget hvalid hcgi]
    rfl
  | false =>
    rw [answerTo_regular hfiles hs hhead hvalid hcoherent hfile hcgi,
      answerTo_regular hfiles hs hget hvalid hcoherent hfile hcgi,
      Client.head_answer (by decide) (Client.cr_notMem_mimeOf _), List.append_right_eq_self]
    by_cases hnone : w.cache.mapping.lookup (site.servingDirectory ++ r.url) = none
    · simp [hmethod, hnone]
    · simp [hnone]

/-- A request for the head of the page. -/
def sampleHead : Bytes := bytes "HEAD /a.html HTTP/1.1\r\nConnection:keep-alive\r\n\r\n"

/-- The parsed request for the head of the page. -/
def sampleHeadRequest : Request where
  method := some .head
  version := some .http11
  url := bytes "/a.html"
  headers := [{ key := bytes "Connection", value := bytes "keep-alive" }]
  isValid := true
  shouldClose := false

/-- Before the first request, `HEAD` is answered as it should be. -/
theorem head_answer_uncached :
    answerTo sampleSite sampleWorld sampleHead =
      Client.head (answerTo sampleSite sampleWorld sampleGet) :=
  (head_answer_iff (fun _ => rfl) (Served.start initCacheSize 0 0)
    (show Request.ofString sampleHead = .ok sampleHeadRequest by decide +kernel) rfl rfl
    (by decide +kernel) (show sampleFiles (bytes "www/a.html") = .regular (bytes "hello") by
      decide +kernel)).mpr (.inl (by decide +kernel))

/-- After a `GET`, the answer to `HEAD` has a body. -/
theorem head_answer_cached :
    ∃ w, Served sampleSite w ∧
      answerTo sampleSite w sampleHead ≠ Client.head (answerTo sampleSite w sampleGet) := by
  refine ⟨(parseHttpRequest sampleSite [.error .eagain]
    { accepted sampleWorld with unread := sampleGet }).shared, ?_, ?_⟩
  · exact .handled _ (.start initCacheSize 0 0)
  · decide +kernel

/-! ## `Content-Length` -/

/-- The world after a request, unless the request has brought the process down. -/
def afterRequest (site : Site) (w : World Cache) (frame : Bytes) : Option (World Cache) :=
  match handleRequest site frame w with
  | .ok (w', _) => some w'
  | .error _ => none

/-- A request leaves a cache that is described by a store. -/
lemma sound_afterRequest {site : Site} {w w' : World Cache} {frame : Bytes} (hw : w.Sound)
    (h : afterRequest site w frame = some w') : w'.Sound := by
  unfold afterRequest at h
  cases heq : handleRequest site frame w with
  | error fault => rw [heq] at h; cases h
  | ok result =>
    obtain ⟨w'', reply⟩ := result
    rw [heq] at h
    cases h
    exact hw.handleRequest heq

/-- If the request is not a `HEAD`, its answer has a `Content-Length` header whose value is the
number of bytes behind the head. -/
def Framed (site : Site) (w : World Cache) (frame : Bytes) : Prop :=
  ∀ r, Request.ofString frame = .ok r → r.method ≠ some .head →
    ∀ w' answer last, handleRequest site frame w = .ok (w', .answer answer last) →
      ∃ value, Client.field headerContentLength answer = some value ∧
        Client.decimal value = some (Client.body answer).length

/-- If the request is a valid `GET` for a regular file that is in the cache, the entry is as long
as the file is now. -/
def current (site : Site) (w : World Cache) (frame : Bytes) : Bool :=
  match Request.ofString frame with
  | .error _ => true
  | .ok r =>
    let path := site.servingDirectory ++ r.url
    !r.isValid || r.method ≠ some .get || isCgiRequest path ||
      match w.cache.contents.lookup path, site.fileSystem w.handled path with
      | some data, .regular content => data.length = content.length
      | _, _ => true

/-- The length that a client reads in an answer of the server. -/
lemma framed_answer_iff {statusCode : Bytes} {mime : Option Bytes} (hcode : 13 ∉ statusCode)
    (hmime : ∀ m ∈ mime, 13 ∉ m) (close : Bool) (size : ℕ) (content : Bytes) :
    (∃ value, Client.field headerContentLength (answerHead statusCode close size mime ++ content) =
        some value ∧
      Client.decimal value =
        some (Client.body (answerHead statusCode close size mime ++ content)).length) ↔
      content.length = size := by
  rw [Client.contentLength_answer hcode hmime, Client.body_answer hcode hmime]
  constructor
  · rintro ⟨value, hvalue, hdecimal⟩
    obtain rfl := Option.some.inj hvalue
    rw [Client.decimal_toDecimal] at hdecimal
    exact (Option.some.inj hdecimal).symm
  · rintro rfl
    exact ⟨_, rfl, Client.decimal_toDecimal _⟩

/-- A request that is answered is framed if its one answer is. -/
lemma framed_iff_of_answer {site : Site} {w w' : World Cache} {frame answer : Bytes} {last : Bool}
    {r : Request} (parse : Request.ofString frame = .ok r)
    (heq : handleRequest site frame w = .ok (w', .answer answer last)) :
    Framed site w frame ↔ (r.method ≠ some .head →
      ∃ value, Client.field headerContentLength answer = some value ∧
        Client.decimal value = some (Client.body answer).length) := by
  constructor
  · intro h hmethod
    exact h r parse hmethod w' answer last heq
  · intro h r' hr' hmethod w'' answer' last' ha
    rw [parse] at hr'
    cases hr'
    rw [heq] at ha
    cases ha
    exact h hmethod

/-- A request that is not answered is framed. -/
lemma framed_of_not_answered {site : Site} {w : World Cache} {frame : Bytes}
    (h : ∀ w' answer last, handleRequest site frame w ≠ .ok (w', .answer answer last)) :
    Framed site w frame :=
  fun _ _ _ w' answer last ha => absurd ha (h w' answer last)

/-- **One request**: its answer is framed exactly if the cache is current for it.

**Proof sketch.** By the outcome of the handler. What is answered without a body is framed with
length 0, and a request without an answer is framed trivially; `current` is true in these cases. On
a miss the length that is announced is that of the content that is sent. Only a hit sends something
else than the file of now, namely what was cached, and `current` compares the two lengths. -/
lemma framed_iff_current {site : Site} {w : World Cache} (hw : w.Sound) (frame : Bytes) :
    Framed site w frame ↔ current site w frame = true := by
  obtain ⟨s, hs⟩ := hw
  have hempty : ∀ m ∈ (none : Option Bytes), 13 ∉ m := by simp
  have hlookup : ∀ path, w.cache.contents.lookup path = s.lookup path := by
    intro path
    rw [hs.contents_eq]
    rfl
  obtain ⟨outcome, hcases, hout⟩ := handleRequest_cases site frame hs
  cases hcases with
  | unparsed parse =>
    refine iff_of_true (framed_of_not_answered ?_) (by simp [current, parse])
    intro w' answer last ha
    rw [show handleRequest site frame w = _ from hout] at ha
    cases ha
  | badRequest parse valid =>
    obtain ⟨c', -, heq⟩ := hout
    refine iff_of_true ((framed_iff_of_answer parse heq).mpr fun _ => ?_)
      (by simp [current, parse, valid])
    have := (framed_answer_iff (show 13 ∉ responseBadRequest by decide) hempty true 0 []).mpr rfl
    simpa using this
  | cgi parse valid cgi =>
    obtain ⟨c', -, heq⟩ := hout
    refine iff_of_true (framed_of_not_answered ?_) (by simp [current, parse, cgi])
    intro w' answer last ha
    rw [heq] at ha
    cases ha
  | notFound parse valid cgi entry =>
    obtain ⟨c', -, heq⟩ := hout
    refine iff_of_true ((framed_iff_of_answer parse heq).mpr fun _ => ?_)
      (by simp [current, parse, entry])
    have := (framed_answer_iff (show 13 ∉ responseNotFound by decide) hempty true 0 []).mpr rfl
    simpa using this
  | directory parse valid cgi entry =>
    refine iff_of_true (framed_of_not_answered ?_) (by simp [current, parse, entry])
    intro w' answer last ha
    rw [show handleRequest site frame w = _ from hout] at ha
    cases ha
  | @hit r content data parse valid cgi entry cached =>
    obtain ⟨c', -, heq⟩ := hout
    rw [framed_iff_of_answer parse heq,
      framed_answer_iff (by decide) (Client.cr_notMem_mimeOf (site.servingDirectory ++ r.url))]
    rcases Request.method_of_valid parse valid with hmethod | hmethod
    · simp [current, parse, valid, cgi, hlookup, cached, entry, hmethod]
    · simp [current, parse, hmethod]
  | miss parse valid cgi entry cached =>
    obtain ⟨c', -, heq⟩ := hout
    refine iff_of_true ((framed_iff_of_answer parse heq).mpr fun hmethod => ?_)
      (by simp [current, parse, hlookup, cached])
    rw [if_neg hmethod]
    exact (framed_answer_iff (by decide) (Client.cr_notMem_mimeOf _) _ _ _).mpr rfl

/-- **`Content-Length` frames the body**, along a whole run of requests between which the files may
change in any way, exactly if each `GET` that hits the cache finds there an entry that is as long
as the file is then. -/
theorem framed_iff (site : Site) {A : Allocator} (w : World Cache) (hcache : w.cache.Reachable A)
    (frames : List Bytes) :
    Transition.Along (afterRequest site) (Framed site) w frames ↔
      Transition.Along (afterRequest site) (fun w frame => current site w frame = true) w
        frames := by
  exact Transition.along_congr World.Sound frames (fun _ _ _ hw _ => sound_afterRequest hw)
    (fun _ frame _ hw => framed_iff_current hw frame) w hcache.exists_refines

/-- The page is requested twice, and does not change. -/
theorem framed_unchanged :
    Transition.Along (afterRequest sampleSite) (Framed sampleSite) sampleWorld
      [sampleGet, sampleHead, sampleGet] :=
  (framed_iff sampleSite sampleWorld sampleWorld_reachable _).mpr (by decide +kernel)

/-- The same directory, where every page is rewritten after the first request. -/
def rewrittenSite : Site where
  servingDirectory := bytes "www"
  fileSystem n := if n = 0 then sampleFiles else fun _ => .regular (bytes "hi")
  allocator := Allocator.bump
  clock _ := 0

/-- The page is requested, rewritten and requested again: the second answer announces the length
of the new page and has the old one as its body. -/
theorem not_framed_rewritten :
    ¬ Transition.Along (afterRequest rewrittenSite) (Framed rewrittenSite) sampleWorld
      [sampleGet, sampleGet] := by
  rintro ⟨-, hrest⟩
  obtain ⟨w, hw⟩ : ∃ w, afterRequest rewrittenSite sampleWorld sampleGet = some w :=
    Option.isSome_iff_exists.mp (by decide +kernel)
  have hstale : (afterRequest rewrittenSite sampleWorld sampleGet).map
      (fun w => current rewrittenSite w sampleGet) = some false := by
    decide +kernel
  rw [hw] at hstale
  have hsound := sound_afterRequest sampleWorld_reachable.exists_refines hw
  have hcurrent := (framed_iff_current hsound sampleGet).mp (hrest w hw).1
  rw [Option.map_some, hcurrent] at hstale
  cases hstale

end Icee.Http
