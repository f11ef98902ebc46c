import Icee.Http.ServerStore

set_option relaxedAutoImplicit false
set_option autoImplicit false

/-!
# Delivery does not matter

A connection is fed by readiness events, each of which drains the socket. How the byte stream
was cut up into events and into the results of single `recv` calls leaves no trace: neither in
what is written, nor in the cache, nor in the fate of the connection.

## Main results

* `Icee.Http.runEvents_agree` — two deliveries of the same stream.
-/

namespace Icee.Http

open Pipeline

/-- No request of the stream asks for a path that contains `cgi_bin`. -/
def NoCgi (servingDirectory stream : Bytes) : Prop :=
  ∀ frame ∈ Search.frames crlfCrlf stream, asksForCgi servingDirectory frame = false

instance (servingDirectory stream : Bytes) : Decidable (NoCgi servingDirectory stream) :=
  inferInstanceAs (Decidable (∀ frame ∈ Search.frames crlfCrlf stream,
    asksForCgi servingDirectory frame = false))

/-- The handler over a store is silent on no request of such a stream. -/
lemma neverSilent_of_noCgi {servingDirectory stream : Bytes} (h : NoCgi servingDirectory stream)
    (fileSystem : ℕ → FileSystem) :
    NeverSilent crlfCrlf (Spec.handleRequest servingDirectory fileSystem) stream := by
  intro frame hframe v v' hsilent
  have hcgi := Spec.asksForCgi_of_silent hsilent
  rw [h frame hframe] at hcgi
  cases hcgi

/-- A new connection over the nodes and over the store. -/
lemma accepted_rel {w : World Cache} {v : World Store} (h : w.Rel v) :
    (accepted w).Rel World.Rel { unread := [], shared := v, events := [], status := .serving } :=
  ⟨rfl, h, rfl, rfl⟩

/-- One delivery of a stream, compared with the stream served at once over the store. -/
lemma runEvents_store (site : Site) {w : World Cache} {v : World Store} (hw : w.Rel v)
    {events : List (List RecvResult)} {ms : List Bytes} (h : List.Forall₂ Drains events ms)
    (hcgi : NoCgi site.servingDirectory ms.flatten) :
    ∃ s, (runEvents site events (accepted w)).Rel World.Rel s ∧
      Agree s (serve crlfCrlf (Spec.handleRequest site.servingDirectory site.fileSystem)
        { unread := ms.flatten, shared := v, events := [], status := .serving }) := by
  have ht : crlfCrlf ≠ [] := by decide
  rw [runEvents_of_drains site h]
  refine ⟨_, deliverAll_rel ht (handleRequest_spec site) ms (accepted_rel hw), ?_⟩
  have hcut : Search.cut crlfCrlf ([] : Bytes) = none := by decide
  exact deliverAll_agree ht ms rfl hcut
    (neverSilent_of_noCgi (by simpa using hcgi) site.fileSystem)

/-- **Delivery does not matter.** Two connections to which the same stream is delivered, by
whatever readiness events, have the same history: the same requests are taken, the same responses
are written, and the same decision about the connection is made. They leave the same entries in
the cache in the same order of use, and as long as they go on, they hold the same unread bytes.
The clocks and the memory allocators of the two runs have nothing to do with each other. -/
theorem runEvents_agree (servingDirectory : Bytes) (fs : FileSystem) (A₁ A₂ : Allocator)
    (clock₁ clock₂ : ℕ → UInt64) {A : Allocator} {cache : Cache} (hcache : cache.Reachable A)
    {stream : Bytes} (hcgi : NoCgi servingDirectory stream)
    {events₁ events₂ : List (List RecvResult)} {ms₁ ms₂ : List Bytes}
    (h₁ : List.Forall₂ Drains events₁ ms₁) (h₂ : List.Forall₂ Drains events₂ ms₂)
    (hstream₁ : ms₁.flatten = stream) (hstream₂ : ms₂.flatten = stream) :
    let conn₁ := runEvents ⟨servingDirectory, fun _ => fs, A₁, clock₁⟩ events₁
      (accepted ⟨cache, 0, false⟩)
    let conn₂ := runEvents ⟨servingDirectory, fun _ => fs, A₂, clock₂⟩ events₂
      (accepted ⟨cache, 0, false⟩)
    conn₁.events = conn₂.events ∧
      conn₁.shared.cache.contents = conn₂.shared.cache.contents ∧
      conn₁.status = conn₂.status ∧
      (conn₁.status = .serving → conn₁.unread = conn₂.unread) := by
  intro conn₁ conn₂
  obtain ⟨s, hs⟩ := hcache.exists_refines
  have hw : World.Rel ⟨cache, 0, false⟩ ⟨s, 0, false⟩ := ⟨hs, rfl, rfl⟩
  subst hstream₁
  obtain ⟨t₁, hrel₁, hagree₁⟩ :=
    runEvents_store ⟨servingDirectory, fun _ => fs, A₁, clock₁⟩ hw h₁ hcgi
  obtain ⟨t₂, hrel₂, hagree₂⟩ :=
    runEvents_store ⟨servingDirectory, fun _ => fs, A₂, clock₂⟩ hw h₂ (hstream₂ ▸ hcgi)
  rw [hstream₂] at hagree₂
  have hstatus : conn₁.status = conn₂.status := by
    rw [hrel₁.status, hagree₁.status, ← hagree₂.status, ← hrel₂.status]
  refine ⟨?_, ?_, hstatus, fun hserving => ?_⟩
  · rw [hrel₁.events, hagree₁.events, ← hagree₂.events, ← hrel₂.events]
  · rw [hrel₁.shared.cache.contents_eq, hrel₂.shared.cache.contents_eq, hagree₁.shared,
      hagree₂.shared]
  · rw [hrel₁.unread, hagree₁.unread (hrel₁.status ▸ hserving), hrel₂.unread,
      hagree₂.unread (hrel₂.status ▸ hstatus ▸ hserving)]

/-- A request delivered at once and in two events, the first of which ends in the middle of the
delimiter. -/
theorem runEvents_agree_split :
    let start := accepted sampleWorld
    let conn₁ := runEvents sampleSite [[.data sampleGet (by decide), .error .eagain]] start
    let conn₂ := runEvents { sampleSite with clock := fun n => n.toUInt64 }
      [[.data (sampleGet.take 44) (by decide), .error .eintr, .error .eagain],
        [.data (sampleGet.drop 44) (by decide), .error .ewouldblock]] start
    conn₁.events.length = 3 ∧ conn₁.events = conn₂.events ∧
      conn₁.shared.cache.contents = conn₂.shared.cache.contents ∧
      conn₁.status = conn₂.status ∧
      (conn₁.status = .serving → conn₁.unread = conn₂.unread) :=
  ⟨by decide +kernel,
    runEvents_agree (bytes "www") sampleFiles Allocator.bump Allocator.bump (fun _ => 0)
      (fun n => n.toUInt64) ⟨initCacheSize, 0, 0, [], [], rfl⟩
      (show NoCgi (bytes "www") sampleGet by decide +kernel)
      (.cons (.data (by decide) .eagain) .nil)
      (.cons (.data (by decide) (.eintr .eagain)) (.cons (.data (by decide) .ewouldblock) .nil))
      (by decide +kernel) (by decide +kernel)⟩

end Icee.Http
