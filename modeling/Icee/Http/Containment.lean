import Icee.Http.Client
import Icee.Http.ServerStore
import Icee.Lib.Location

set_option relaxedAutoImplicit false
set_option autoImplicit false

/-!
# The serving directory

The path that the handler opens is the serving directory with the url behind it, as one string.
Here both are resolved, component by component, and it is said for which urls the file lies in
the directory.

## Main definitions

* `Icee.Http.resolve` — the place a path leads to, without symbolic links.
* `Icee.Http.Contained` — what is answered with `200 OK` lies in the serving directory.
* `Icee.Http.StaysInside` — a url that climbs out of the directory comes back into it.

## Main results

* `Icee.Http.answersOk_iff` — the requests that are answered with `200 OK`.
* `Icee.Http.contained_iff` — a request is contained exactly if its url stays inside.

## Design

A relative path is resolved from the working directory `cwd` of the process, a list of names from
the root, about which nothing is assumed. A serving directory need not end with a slash and a url
need not begin with one, so that the url may go on with the last component of the directory; the
walk is therefore cut in front of that component.
-/

namespace Icee.Http

open Location

/-! ## Resolving paths -/

/-- The separator of the components of a path. -/
def slash : UInt8 := 47

/-- What a component of a path means. -/
def classify (piece : Bytes) : Component Bytes :=
  if piece = [] ∨ piece = bytes "." then .stay
  else if piece = bytes ".." then .up
  else .name piece

/-- The components of a path. -/
def components (path : Bytes) : List (Component Bytes) := (path.splitOn slash).map classify

/-- Where a path starts. -/
def start (cwd : List Bytes) (path : Bytes) : List Bytes :=
  if path.head? = some slash then [] else cwd

/-- The place a path leads to. -/
def resolve (cwd : List Bytes) (path : Bytes) : List Bytes :=
  walk (start cwd path) (components path)

/-- The path up to its last slash. -/
def parentPart (path : Bytes) : Bytes := path.rdropWhile (· ≠ slash)

/-- The path behind its last slash. -/
def lastPiece (path : Bytes) : Bytes := path.rtakeWhile (· ≠ slash)

/-- The components of a path are those before and behind one of its slashes. -/
lemma components_append_slash (path path' : Bytes) :
    components (path ++ slash :: path') = components path ++ components path' := by
  unfold components
  rw [List.splitOn_append_cons_self, List.map_append]

/-- A path up to its last slash is empty or ends with a slash. -/
lemma parentPart_cases (path : Bytes) :
    parentPart path = [] ∨ ∃ front, parentPart path = front ++ [slash] := by
  by_cases h : parentPart path = []
  · exact .inl h
  · refine .inr ⟨(parentPart path).dropLast, ?_⟩
    have hlast : (parentPart path).getLast h = slash := by
      simpa [parentPart] using List.rdropWhile_last_not (· ≠ slash) path h
    conv_lhs => rw [← List.dropLast_append_getLast h, hlast]

/-- No slash stands behind the last one. -/
lemma slash_notMem_lastPiece (path : Bytes) : slash ∉ lastPiece path := by
  intro h
  simpa using List.mem_rtakeWhile_imp h

/-- Walking along what stands before the last slash, and then along what is put behind it. -/
lemma walk_components_append (place : List Bytes) (path piece : Bytes) :
    walk place (components (parentPart path ++ piece)) =
      walk (walk place (components (parentPart path))) (components piece) := by
  rcases parentPart_cases path with h | ⟨front, h⟩
  · rw [h]
    rfl
  · rw [h, List.append_assoc, List.singleton_append, components_append_slash,
      components_append_slash, walk_append, walk_append]
    rfl

/-- The components of a piece without a slash. -/
lemma components_of_notMem {piece : Bytes} (h : slash ∉ piece) :
    components piece = [classify piece] := by
  unfold components
  rw [List.splitOn_eq_singleton h]
  rfl

/-! ## The urls that stay inside -/

/-- The walk along the last component of the serving directory and the url: if it climbs out of
the directory that it starts in, then it comes down along the names that lead to the serving
directory. -/
def StaysInside (cwd : List Bytes) (servingDirectory url : Bytes) : Prop :=
  let base := walk (start cwd (servingDirectory ++ url)) (components (parentPart servingDirectory))
  let eff := net (components (lastPiece servingDirectory ++ url))
  (resolve cwd servingDirectory).drop (base.length - eff.climbed) <+: eff.names

instance (cwd : List Bytes) (servingDirectory url : Bytes) :
    Decidable (StaysInside cwd servingDirectory url) :=
  inferInstanceAs (Decidable (_ <+: _))

/-- The serving directory lies above or below the place in front of its last component. -/
lemma resolve_comparable (cwd : List Bytes) (servingDirectory url : Bytes) :
    let base := walk (start cwd (servingDirectory ++ url))
      (components (parentPart servingDirectory))
    resolve cwd servingDirectory <+: base ∨ base <+: resolve cwd servingDirectory := by
  intro base
  cases servingDirectory with
  | nil =>
    -- without a directory the url decides where the walk starts
    have hresolve : resolve cwd [] = cwd := rfl
    have hbase : base = start cwd url := rfl
    rw [hresolve, hbase]
    unfold start
    split
    · exact .inr List.nil_prefix
    · exact .inl (List.prefix_refl _)
  | cons c servingDirectory =>
    have hresolve : resolve cwd (c :: servingDirectory) =
        step base (classify (lastPiece (c :: servingDirectory))) := by
      have hparts : parentPart (c :: servingDirectory) ++ lastPiece (c :: servingDirectory) =
          c :: servingDirectory := List.rdropWhile_append_rtakeWhile
      conv_lhs => rw [resolve, ← hparts, walk_components_append, hparts,
        components_of_notMem (slash_notMem_lastPiece _)]
      rfl
    rw [hresolve]
    exact prefix_or_prefix_step _ _

/-- **The path of a url lies in the serving directory** exactly if the url stays inside. -/
lemma resolve_prefix_iff (cwd : List Bytes) (servingDirectory url : Bytes) :
    resolve cwd servingDirectory <+: resolve cwd (servingDirectory ++ url) ↔
      StaysInside cwd servingDirectory url := by
  have hparts : parentPart servingDirectory ++ lastPiece servingDirectory = servingDirectory :=
    List.rdropWhile_append_rtakeWhile
  have hpath : resolve cwd (servingDirectory ++ url) =
      walk (walk (start cwd (servingDirectory ++ url)) (components (parentPart servingDirectory)))
        (components (lastPiece servingDirectory ++ url)) := by
    rw [← walk_components_append, ← List.append_assoc, hparts]
    rfl
  rw [hpath, walk_eq_apply _ (components (lastPiece servingDirectory ++ url))]
  exact prefix_apply_iff (resolve_comparable cwd servingDirectory url) _

/-! ## What is answered with `200 OK` -/

/-- The status line of an answer that found what was asked for. -/
def statusOk : Bytes := httpVersion ++ space ++ responseOk

/-- **The requests that are answered with `200 OK`** are the valid ones for a regular file that
have nothing to do with `cgi_bin`.

**Proof sketch.** By the outcome of the handler: a hit and a miss are the two that answer with this
status line, and they are the two in which the path is a regular file. The status lines of the other
answers are other bytes. -/
lemma answersOk_iff (site : Site) {w : World Cache} (hw : w.Sound) (frame : Bytes) :
    (∃ w' answer last, handleRequest site frame w = .ok (w', .answer answer last) ∧
      Client.statusLine answer = some statusOk) ↔
    ∃ r content, Request.ofString frame = .ok r ∧ r.isValid = true ∧
      isCgiRequest (site.servingDirectory ++ r.url) = false ∧
      site.fileSystem w.handled (site.servingDirectory ++ r.url) = .regular content := by
  obtain ⟨s, hs⟩ := hw
  obtain ⟨outcome, hcases, hout⟩ := handleRequest_cases site frame hs
  have hnone : ∀ m ∈ (none : Option Bytes), 13 ∉ m := by simp
  cases hcases with
  | @unparsed fault parse =>
    rw [show handleRequest site frame w = .error fault from hout, parse]
    simp
  | badRequest parse valid =>
    obtain ⟨c', -, heq⟩ := hout
    refine iff_of_false ?_ (by simp [parse, valid])
    rintro ⟨w', answer, last, heq', hstatus⟩
    rw [heq] at heq'
    cases heq'
    have hbad := Client.statusLine_answer (show 13 ∉ responseBadRequest by decide) hnone true 0 []
    rw [List.append_nil, hstatus] at hbad
    exact absurd (Option.some.inj hbad) (by decide)
  | cgi parse valid cgi =>
    obtain ⟨c', -, heq⟩ := hout
    rw [heq, parse]
    simp [cgi]
  | notFound parse valid cgi entry =>
    obtain ⟨c', -, heq⟩ := hout
    refine iff_of_false ?_ (by simp [parse, entry])
    rintro ⟨w', answer, last, heq', hstatus⟩
    rw [heq] at heq'
    cases heq'
    have hmissing := Client.statusLine_answer (show 13 ∉ responseNotFound by decide) hnone true 0 []
    rw [List.append_nil, hstatus] at hmissing
    exact absurd (Option.some.inj hmissing) (by decide)
  | directory parse valid cgi entry =>
    rw [show handleRequest site frame w = .error .filesystemError from hout, parse]
    simp [entry]
  | hit parse valid cgi entry cached =>
    obtain ⟨c', -, heq⟩ := hout
    refine iff_of_true ⟨_, _, _, heq, ?_⟩ ⟨_, _, parse, valid, cgi, entry⟩
    exact Client.statusLine_answer (by decide) (Client.cr_notMem_mimeOf _) _ _ _
  | miss parse valid cgi entry cached =>
    obtain ⟨c', -, heq⟩ := hout
    refine iff_of_true ⟨_, _, _, heq, ?_⟩ ⟨_, _, parse, valid, cgi, entry⟩
    exact Client.statusLine_answer (by decide) (Client.cr_notMem_mimeOf _) _ _ _

/-- What is answered with `200 OK` lies at or below the serving directory. -/
def Contained (site : Site) (cwd : List Bytes) (w : World Cache) (frame : Bytes) : Prop :=
  ∀ r w' answer last, Request.ofString frame = .ok r →
    handleRequest site frame w = .ok (w', .answer answer last) →
    Client.statusLine answer = some statusOk →
    resolve cwd site.servingDirectory <+: resolve cwd (site.servingDirectory ++ r.url)

/-- **Served files lie in the serving directory** exactly if their urls stay inside: for every
serving directory, every working directory and every state of the cache and of the file system,
a request is contained if and only if it is not a valid request for a regular file, or it has to do
with `cgi_bin`, or its url stays inside. -/
theorem contained_iff (site : Site) (cwd : List Bytes) {A : Allocator} {w : World Cache}
    (hcache : w.cache.Reachable A) (frame : Bytes) :
    Contained site cwd w frame ↔
      ∀ r content, Request.ofString frame = .ok r → r.isValid = true →
        isCgiRequest (site.servingDirectory ++ r.url) = false →
        site.fileSystem w.handled (site.servingDirectory ++ r.url) = .regular content →
        StaysInside cwd site.servingDirectory r.url := by
  have hok := answersOk_iff site hcache.exists_refines frame
  constructor
  · intro h r content parse valid cgi entry
    obtain ⟨w', answer, last, heq, hstatus⟩ := hok.mpr ⟨r, content, parse, valid, cgi, entry⟩
    exact (resolve_prefix_iff cwd _ _).mp (h r w' answer last parse heq hstatus)
  · intro h r w' answer last parse heq hstatus
    obtain ⟨r', content, parse', valid, cgi, entry⟩ := hok.mp ⟨w', answer, last, heq, hstatus⟩
    rw [parse] at parse'
    cases parse'
    exact (resolve_prefix_iff cwd _ _).mpr (h r content parse valid cgi entry)

/-! ## A site with a secret -/

/-- A directory `www` with a page, and two files outside of it. -/
def secretFiles : FileSystem := fun path =>
  if path = bytes "www/a.html" then .regular (bytes "hello")
  else if path = bytes "www/../secret" then .regular (bytes "secret")
  else if path = bytes "wwwx" then .regular (bytes "secret")
  else .absent

/-- The site of that directory. -/
def secretSite : Site := { sampleSite with fileSystem := fun _ => secretFiles }

/-- A valid request for a url, without headers. -/
def secretRequest (url : Bytes) : Request :=
  { method := some .get, version := some .http11, url := url, isValid := true }

/-- A page of the directory is contained. -/
theorem contained_page :
    Contained secretSite [bytes "srv"] sampleWorld (bytes "GET /a.html HTTP/1.1\r\n\r\n") := by
  refine (contained_iff secretSite [bytes "srv"] sampleWorld_reachable _).mpr ?_
  intro r content parse _ _ _
  have hurl : r.url = bytes "/a.html" := by
    have hparse : (Request.ofString (bytes "GET /a.html HTTP/1.1\r\n\r\n")).map Request.url =
        .ok (bytes "/a.html") := by decide +kernel
    rw [parse] at hparse
    exact Except.ok.inj hparse
  rw [hurl]
  decide +kernel

/-- The file in front of the directory and the file whose name begins with that of the directory
are answered with `200 OK`. -/
theorem secret_is_served :
    ¬ Contained secretSite [bytes "srv"] sampleWorld (bytes "GET /../secret HTTP/1.1\r\n\r\n") ∧
      ¬ Contained secretSite [bytes "srv"] sampleWorld (bytes "GET x HTTP/1.1\r\n\r\n") := by
  have hescape : ∀ {frame : Bytes} {r : Request} {content : Bytes},
      Request.ofString frame = .ok r → r.isValid = true →
      isCgiRequest (bytes "www" ++ r.url) = false →
      secretFiles (bytes "www" ++ r.url) = .regular content →
      ¬ resolve [bytes "srv"] (bytes "www") <+: resolve [bytes "srv"] (bytes "www" ++ r.url) →
      ¬ Contained secretSite [bytes "srv"] sampleWorld frame := by
    intro frame r content parse valid cgi entry hout h
    obtain ⟨w', answer, last, heq, hstatus⟩ := (answersOk_iff secretSite
      sampleWorld_reachable.exists_refines frame).mpr ⟨r, content, parse, valid, cgi, entry⟩
    exact hout (h r w' answer last parse heq hstatus)
  constructor
  · exact hescape (show _ = Except.ok (secretRequest (bytes "/../secret")) by decide +kernel) rfl
      (by decide +kernel) (show _ = Entry.regular (bytes "secret") by decide +kernel)
      (by decide +kernel)
  · exact hescape (show _ = Except.ok (secretRequest (bytes "x")) by decide +kernel) rfl
      (by decide +kernel) (show _ = Entry.regular (bytes "secret") by decide +kernel)
      (by decide +kernel)

end Icee.Http
