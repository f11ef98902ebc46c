import Icee.Http.Coherence

set_option relaxedAutoImplicit false
set_option autoImplicit false

/-!
# Connections served side by side

Several threads answer requests at the same time and share the cache. `TryLoad` and `TryInsert`
hold its latch, so each of them is one step; between a `TryLoad` that misses and its `TryInsert`
the steps of other threads may come in. The files do not change.

## Main definitions

* `Icee.Http.Handlers` — the cache, the threads that have missed, and the answers given so far.
* `Icee.Http.Handlers.step` — the steps of the threads.

## Main results

* `Icee.Http.Handlers.answers_are_files` — in every interleaving, every `200` answer to a `GET` is
  the head for its file and then the file.

## Design

The thread of a connection handles its requests one after the other, but nothing is said about
which frames it meets: a step may be taken on any frame. A thread that runs into a fault stops
the process.
-/

namespace Icee.Http

/-- A request after its `TryLoad` has missed. -/
structure Missed where
  frame : Bytes
  resourceFullPath : Bytes
  responseBuf : Bytes
  cacheBuf : Bytes

/-- The threads that handle requests: the cache they share, the request that a thread is about to
offer to the cache, the requests answered so far with their answers, and the fault that has
stopped the process. -/
structure Handlers (T : Type) where
  cache : Cache
  missed : T → Option Missed
  answers : List (Bytes × Bytes)
  fault : Option Fault

/-- A step of a thread: a request up to the end of `TryLoad` or, if that misses, up to the point
where `TryInsert` takes the latch; or the `TryInsert`. -/
inductive Move (T : Type)
  | begin (t : T) (frame : Bytes) (now : UInt64)
  | finish (t : T) (now : UInt64)

namespace Handlers

variable {T : Type} [DecidableEq T]

/-- The threads when the server starts. -/
def start (T : Type) (A : Allocator) (capacity : Int32) (now₁ now₂ : UInt64) : Handlers T where
  cache := Cache.make A capacity now₁ now₂
  missed _ := none
  answers := []
  fault := none

/-- One step, if it is possible. -/
def step (servingDirectory : Bytes) (fs : FileSystem) (A : Allocator) (h : Handlers T) :
    Move T → Option (Handlers T)
  | .begin t frame now =>
    match h.fault, h.missed t with
    | none, none =>
      match beginRequest servingDirectory fs now frame h.cache with
      | .error fault => some { h with fault := some fault }
      | .ok (cache, .cgi, _) => some { h with cache }
      | .ok (cache, .answered responseBuf _, _) =>
        some { h with cache, answers := h.answers ++ [(frame, responseBuf)] }
      | .ok (cache, .missed resourceFullPath responseBuf cacheBuf _, _) =>
        let m : Missed := { frame, resourceFullPath, responseBuf, cacheBuf }
        some { h with cache, missed := Function.update h.missed t (some m) }
    | _, _ => none
  | .finish t now =>
    match h.fault, h.missed t with
    | none, some m =>
      match finishRequest A now m.resourceFullPath m.cacheBuf h.cache with
      | .error fault => some { h with fault := some fault }
      | .ok cache =>
        some { h with
          cache
          missed := Function.update h.missed t none
          answers := h.answers ++ [(m.frame, m.responseBuf)] }
    | _, _ => none

/-- If the request is a `GET` and the answer a `200`, the answer is the head for the file and then
the file. -/
def RightAnswer (servingDirectory : Bytes) (fs : FileSystem) (frame answer : Bytes) : Prop :=
  ∀ r, Request.ofString frame = .ok r → r.method = some .get →
    Client.statusLine answer = some (httpVersion ++ space ++ responseOk) →
    ∃ content, fs (servingDirectory ++ r.url) = .regular content ∧
      answer = answerHead responseOk r.shouldClose content.length
        (mimeOf (servingDirectory ++ r.url)) ++ content

/-- A request that has missed holds a right answer and the content of its file. -/
def RightMissed (servingDirectory : Bytes) (fs : FileSystem) (m : Missed) : Prop :=
  fs m.resourceFullPath = .regular m.cacheBuf ∧ isCgiRequest m.resourceFullPath = false ∧
    RightAnswer servingDirectory fs m.frame m.responseBuf

/-- What holds between the steps: the cache is coherent, what a thread holds that has missed is
right, and the answers given are right. -/
structure Inv (servingDirectory : Bytes) (fs : FileSystem) (h : Handlers T) : Prop where
  cache : ∃ s, h.cache.Refines s ∧ Coherent fs s
  missed : ∀ t m, h.missed t = some m → RightMissed servingDirectory fs m
  answers : ∀ frame answer, (frame, answer) ∈ h.answers →
    RightAnswer servingDirectory fs frame answer

variable {servingDirectory : Bytes} {fs : FileSystem}

/-- An error is not a `200`. -/
lemma rightAnswer_of_error {statusCode frame : Bytes} (hcode : 13 ∉ statusCode)
    (hne : statusCode ≠ responseOk) (close : Bool) :
    RightAnswer servingDirectory fs frame (answerHead statusCode close 0 none) := by
  intro r _ _ hstatus
  have hline := Client.statusLine_answer hcode (show ∀ m ∈ none, 13 ∉ m by simp) close 0 []
  rw [List.append_nil, hstatus] at hline
  exact absurd (List.append_cancel_left (Option.some.inj hline)).symm hne

/-- The answer that is ready when `TryLoad` has returned is right. -/
lemma rightAnswer_of_answered {frame answer : Bytes} {s s' : Store} {last past : Bool}
    (hcoherent : Coherent fs s)
    (h : Spec.Begins servingDirectory fs frame s (.ok (s', .answered answer last, past))) :
    Coherent fs s' ∧ RightAnswer servingDirectory fs frame answer := by
  cases h with
  | badRequest parse valid =>
    exact ⟨hcoherent, rightAnswer_of_error (by decide) (by decide) true⟩
  | notFound parse valid cgi entry =>
    exact ⟨hcoherent, rightAnswer_of_error (by decide) (by decide) true⟩
  | hit parse valid cgi entry cached =>
    refine ⟨hcoherent.load _, fun r hr _ _ => ?_⟩
    rw [parse] at hr
    cases hr
    -- the bytes of the entry are the bytes of the file
    have hdata := (hcoherent _ _ (Store.mem_of_lookup cached)).1
    rw [entry] at hdata
    cases hdata
    exact ⟨_, entry, rfl⟩

/-- The answer that waits for `TryInsert` is right, and what will be inserted is the file. -/
lemma rightAnswer_of_missed {frame path answer cacheBuf : Bytes} {s s' : Store} {last past : Bool}
    (h : Spec.Begins servingDirectory fs frame s
      (.ok (s', .missed path answer cacheBuf last, past))) :
    s' = s ∧ fs path = .regular cacheBuf ∧ isCgiRequest path = false ∧
      RightAnswer servingDirectory fs frame answer := by
  cases h with
  | miss parse valid cgi entry cached =>
    refine ⟨rfl, entry, cgi, fun r hr hget _ => ?_⟩
    rw [parse] at hr
    cases hr
    refine ⟨_, entry, ?_⟩
    rw [hget]
    simp

omit [DecidableEq T] in
/-- Another right answer is sent. -/
lemma Inv.answers_concat {h : Handlers T} (hinv : Inv servingDirectory fs h)
    {frame answer : Bytes} (hright : RightAnswer servingDirectory fs frame answer) :
    ∀ f a, (f, a) ∈ h.answers ++ [(frame, answer)] → RightAnswer servingDirectory fs f a := by
  intro f a hmem
  rcases List.mem_append.mp hmem with hmem | hmem
  · exact hinv.answers f a hmem
  · obtain ⟨rfl, rfl⟩ := Prod.mk.inj (List.mem_singleton.mp hmem)
    exact hright

/-- A thread begins or ends to wait for `TryInsert`. -/
lemma Inv.missed_update {h : Handlers T} (hinv : Inv servingDirectory fs h) (t : T)
    {o : Option Missed} (ho : ∀ m, o = some m → RightMissed servingDirectory fs m) :
    ∀ u m, Function.update h.missed t o u = some m → RightMissed servingDirectory fs m := by
  rw [Function.forall_update_iff h.missed fun _ o =>
    ∀ m, o = some m → RightMissed servingDirectory fs m]
  exact ⟨ho, fun u _ => hinv.missed u⟩

/-- **Every step** of every thread preserves the invariant.

**Proof sketch.** `TryLoad` and `TryInsert` do to the cache what they do to the store. A hit answers
with what is cached, which is the file; a miss is about to insert what it has read; and to insert
this keeps the store coherent with the files, whatever the other threads have done in between. -/
lemma Inv.step {A : Allocator} {h h' : Handlers T} {move : Move T}
    (hinv : Inv servingDirectory fs h) (hstep : h.step servingDirectory fs A move = some h') :
    Inv servingDirectory fs h' := by
  obtain ⟨s, hs, hcoherent⟩ := hinv.cache
  cases move with
  | begin t frame now =>
    simp only [Handlers.step] at hstep
    split at hstep
    · cases hbegin : beginRequest servingDirectory fs now frame h.cache with
      | error fault =>
        rw [hbegin] at hstep
        cases hstep
        exact ⟨⟨s, hs, hcoherent⟩, hinv.missed, hinv.answers⟩
      | ok result =>
        obtain ⟨c', begun, past⟩ := result
        obtain ⟨s', hs', hbegins⟩ := beginRequest_ok hs hbegin
        rw [hbegin] at hstep
        cases begun with
        | cgi =>
          cases hstep
          cases hbegins with
          | cgi _ _ _ => exact ⟨⟨s, hs', hcoherent⟩, hinv.missed, hinv.answers⟩
        | answered responseBuf last =>
          cases hstep
          obtain ⟨hcoherent', hright⟩ := rightAnswer_of_answered hcoherent hbegins
          exact ⟨⟨s', hs', hcoherent'⟩, hinv.missed, hinv.answers_concat hright⟩
        | missed path responseBuf cacheBuf last =>
          cases hstep
          obtain ⟨rfl, hfile, hcgi, hright⟩ := rightAnswer_of_missed hbegins
          refine ⟨⟨s', hs', hcoherent⟩, hinv.missed_update t fun m hm => ?_, hinv.answers⟩
          cases hm
          exact ⟨hfile, hcgi, hright⟩
    · cases hstep
  | finish t now =>
    simp only [Handlers.step] at hstep
    split at hstep
    · next m _ hm =>
      obtain ⟨hfile, hcgi, hright⟩ := hinv.missed t m hm
      obtain ⟨c', hinsert, hc'⟩ := hs.tryInsert A m.resourceFullPath m.cacheBuf now
      have hfinish : finishRequest A now m.resourceFullPath m.cacheBuf h.cache = .ok c' := by
        simp only [finishRequest, hinsert, bind, Except.bind]
        rfl
      rw [hfinish] at hstep
      cases hstep
      refine ⟨⟨_, hc', hcoherent.insert hfile hcgi⟩, hinv.missed_update t ?_, hinv.answers_concat hright⟩
      intro m hm
      cases hm
    · cases hstep

/-- **Hits, misses and refused inserts give the same answers.** Whatever the threads do and in
whatever order, every `200` answer to a `GET` consists of the status line and headers for its file
and then exactly the bytes of the file, and its `Content-Length` is their number. -/
theorem answers_are_files (servingDirectory : Bytes) (fs : FileSystem) (A : Allocator)
    (capacity : Int32) (now₁ now₂ : UInt64) (moves : List (Move T)) {h : Handlers T}
    (hrun : Transition.exec (step servingDirectory fs A) (start T A capacity now₁ now₂) moves =
      some h)
    {frame answer : Bytes} (hanswer : (frame, answer) ∈ h.answers) {r : Request}
    (hparse : Request.ofString frame = .ok r) (hget : r.method = some .get)
    (hstatus : Client.statusLine answer = some (httpVersion ++ space ++ responseOk)) :
    ∃ content, fs (servingDirectory ++ r.url) = .regular content ∧
      answer = answerHead responseOk r.shouldClose content.length
        (mimeOf (servingDirectory ++ r.url)) ++ content ∧
      Client.body answer = content ∧
      ∃ value, Client.field headerContentLength answer = some value ∧
        Client.decimal value = some content.length := by
  have hstart : Inv servingDirectory fs (start T A capacity now₁ now₂) :=
    ⟨⟨_, Cache.refines_make A capacity now₁ now₂, (nofun)⟩, (nofun), (nofun)⟩
  have hinv := Transition.invariant_of_exec (fun _ _ _ hinv hstep => hinv.step hstep) moves hstart
    hrun
  obtain ⟨content, hfile, hbytes⟩ := hinv.answers frame answer hanswer r hparse hget hstatus
  refine ⟨content, hfile, hbytes, ?_, toDecimal content.length, ?_, Client.decimal_toDecimal _⟩
  · rw [hbytes, Client.body_answer (by decide) (Client.cr_notMem_mimeOf _)]
  · rw [hbytes, Client.contentLength_answer (by decide) (Client.cr_notMem_mimeOf _)]

/-- Two threads miss the same page at the same time and both offer it to the cache, where a third
request finds it. -/
def sampleMoves : List (Move Bool) :=
  [.begin true sampleGet 1, .begin false sampleGet 2, .finish true 3, .finish false 4,
    .begin true sampleGet 5]

/-- All three answers have the page as their body. -/
theorem answers_are_files_interleaved :
    ∃ h, Transition.exec (step (bytes "www") sampleFiles Allocator.bump)
        (start Bool Allocator.bump initCacheSize 0 0) sampleMoves = some h ∧
      h.answers.length = 3 ∧
      ∀ frame answer, (frame, answer) ∈ h.answers → Client.body answer = bytes "hello" := by
  obtain ⟨h, hrun⟩ : ∃ h, Transition.exec (step (bytes "www") sampleFiles Allocator.bump)
      (start Bool Allocator.bump initCacheSize 0 0) sampleMoves = some h :=
    Option.isSome_iff_exists.mp (by decide +kernel)
  have hseen : (Transition.exec (step (bytes "www") sampleFiles Allocator.bump)
      (start Bool Allocator.bump initCacheSize 0 0) sampleMoves).map
      (fun h => h.answers.map fun e => (e.1, Client.statusLine e.2)) =
        some (List.replicate 3 (sampleGet, some (httpVersion ++ space ++ responseOk))) := by
    decide +kernel
  rw [hrun] at hseen
  have hanswers : h.answers.map (fun e => (e.1, Client.statusLine e.2)) =
      List.replicate 3 (sampleGet, some (httpVersion ++ space ++ responseOk)) :=
    Option.some.inj hseen
  refine ⟨h, hrun, ?_, fun frame answer hmem => ?_⟩
  · have := congrArg List.length hanswers
    simpa using this
  · have hpair := List.mem_map_of_mem (f := fun e => (e.1, Client.statusLine e.2)) hmem
    rw [hanswers] at hpair
    obtain ⟨rfl, hstatus⟩ := Prod.mk.inj (List.eq_of_mem_replicate hpair)
    obtain ⟨content, hfile, -, hbody, -⟩ := answers_are_files (bytes "www") sampleFiles
      Allocator.bump initCacheSize 0 0 _ hrun hmem
      (show Request.ofString sampleGet = .ok { sampleHeadRequest with method := some .get } by
        decide +kernel) rfl hstatus
    have hpage : sampleFiles (bytes "www" ++ bytes "/a.html") = .regular (bytes "hello") := by
      decide +kernel
    rw [show sampleFiles (bytes "www" ++ bytes "/a.html") = _ from hfile] at hpage
    rw [hbody]
    exact Entry.regular.inj hpage

end Handlers

end Icee.Http
