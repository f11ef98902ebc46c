import Icee.Core.Basic

set_option relaxedAutoImplicit false
set_option autoImplicit false

/-!
# The cache: nodes, pointers and the hash map

`src/core/cache.cc` keeps the cached resources twice: in a doubly linked list of `CacheNode`s
between two dummy nodes, least recently used first, and in `mapping_`, a hash map from
identifiers to the nodes. This file is the pointer-level model of that class.

## Main definitions

* `Icee.CacheNode`, `Icee.Cache` — the two classes; the heap is part of the cache's state.
* `Icee.Allocator` — what `std::make_shared` promises: an address not in use.
* `Icee.Cache.removeFromList`, `Icee.Cache.appendToEndOfList` — the pointer surgery.
* `Icee.Cache.tryLoad`, `Icee.Cache.evitOne`, `Icee.Cache.tryInsert`, `Icee.Cache.clear` — the
  operations, on a cache whose latch is held.
* `Icee.CacheOp`, `Icee.Cache.run` — sequences of complete calls.

## Design

Every pointer is an `Option Addr`; dereferencing a null pointer or an address that is not
allocated is `Fault.invalidPointer`. A node is freed when the last `shared_ptr` to it goes, which
is when it leaves `mapping_`. The millisecond clock is an argument of the calls that read it.
-/

namespace Icee

/-- Addresses of heap nodes. -/
abbrev Addr := ℕ

/-- `Cache::CacheNode`. -/
structure CacheNode where
  identifier : Bytes := []
  lastAccessTime : Int32 := 0
  data : Bytes := []
  prev : Option Addr := none
  next : Option Addr := none
  deriving DecidableEq, Repr

namespace CacheNode

/-- `Cache::CacheNode::Size`. -/
def size (n : CacheNode) : ℕ := n.data.length

/-- `Cache::CacheNode::UpdateTimeStamp`: the 64-bit clock value is stored in an `int`. -/
def updateTimeStamp (now : UInt64) (n : CacheNode) : CacheNode :=
  { n with lastAccessTime := Int32.ofNat now.toNat }

/-- `Cache::CacheNode::GetTimeStamp`: the `int` is read back as a `uint64_t`. -/
def getTimeStamp (n : CacheNode) : UInt64 := UInt64.ofNat (sizeOfInt n.lastAccessTime)

/-- `Cache::CacheNode::CacheNode(identifier, data)`. -/
def make (identifier data : Bytes) (now : UInt64) : CacheNode :=
  updateTimeStamp now { identifier, data }

/-- `Cache::CacheNode::Serialize`. -/
def serialize (n : CacheNode) (destination : Bytes) : Bytes := destination ++ n.data

end CacheNode

/-- A memory allocator: given the addresses in use it returns one that is not. Addresses of
freed nodes may come back. -/
structure Allocator where
  /-- The next address handed out. -/
  next : List Addr → Addr
  /-- It is not in use. -/
  next_notMem : ∀ used, next used ∉ used

/-- No address in use exceeds the largest one. -/
lemma le_foldr_max {a : Addr} {used : List Addr} (h : a ∈ used) : a ≤ used.foldr max 0 := by
  induction used with
  | nil => cases h
  | cons b used ih =>
    rcases List.mem_cons.mp h with rfl | h
    · exact le_max_left _ _
    · exact Nat.le_trans (ih h) (le_max_right _ _)

/-- An allocator that hands out one more than the largest address in use. -/
def Allocator.bump : Allocator where
  next used := used.foldr max 0 + 1
  next_notMem _ hmem := Nat.not_succ_le_self _ (le_foldr_max hmem)

/-- `INIT_CACHE_SIZE`, the default capacity. -/
def initCacheSize : Int32 := 10 * 1024 * 1024

/-- `Cache`, together with the heap its nodes live in. -/
structure Cache where
  heap : AList fun _ : Addr => CacheNode
  mapping : AList fun _ : Bytes => Addr
  capacity : Int32
  currentSize : Int32
  dummyHeader : Addr
  dummyTailer : Addr

namespace Cache

/-! ## Memory -/

/-- Reads the node a pointer points to. -/
def deref (c : Cache) : Option Addr → Except Fault CacheNode
  | none => .error .invalidPointer
  | some a => match c.heap.lookup a with
    | none => .error .invalidPointer
    | some n => .ok n

/-- Overwrites an allocated node by `f` of it. -/
def update (c : Cache) (a : Addr) (f : CacheNode → CacheNode) : Cache :=
  match c.heap.lookup a with
  | none => c
  | some n => { c with heap := c.heap.insert a (f n) }

/-- Writes through a pointer. -/
def modify (c : Cache) (p : Option Addr) (f : CacheNode → CacheNode) : Except Fault Cache :=
  match p with
  | none => .error .invalidPointer
  | some a => if a ∈ c.heap then .ok (c.update a f) else .error .invalidPointer

/-- The last `shared_ptr` to a node is gone. -/
def free (c : Cache) (a : Addr) : Cache := { c with heap := c.heap.erase a }

/-- `ptr->next_ = v`. -/
def setNext (c : Cache) (p v : Option Addr) : Except Fault Cache :=
  c.modify p fun n => { n with next := v }

/-- `ptr->prev_ = v`. -/
def setPrev (c : Cache) (p v : Option Addr) : Except Fault Cache :=
  c.modify p fun n => { n with prev := v }

/-! ## The member functions -/

/-- `Cache::Cache(capacity)`: the two dummy nodes, pointing at each other. Each of them reads
the clock. -/
def make (A : Allocator) (capacity : Int32) (now₁ now₂ : UInt64) : Cache :=
  let header := A.next []
  let tailer := A.next [header]
  let heap : AList fun _ : Addr => CacheNode :=
    (AList.insert header { CacheNode.make [] [] now₁ with next := some tailer } ∅)
  { heap := heap.insert tailer { CacheNode.make [] [] now₂ with prev := some header }
    mapping := ∅
    capacity := capacity
    currentSize := 0
    dummyHeader := header
    dummyTailer := tailer }

/-- `Cache::RemoveFromList`. The node's own pointers are left as they are. -/
def removeFromList (c : Cache) (node : Addr) : Except Fault Cache := do
  let n ← c.deref (some node)
  let pre := n.prev
  let next := n.next
  let c ← c.setNext pre next
  c.setPrev next pre

/-- `Cache::AppendToEndOfList`. -/
def appendToEndOfList (c : Cache) (node : Addr) : Except Fault Cache := do
  let tailer ← c.deref (some c.dummyTailer)
  let prev := tailer.prev
  let c ← c.setPrev (some node) prev
  let c ← c.setNext (some node) (some c.dummyTailer)
  let c ← c.setNext prev (some node)
  c.setPrev (some c.dummyTailer) (some node)

/-- `Cache::TryLoad`: the cache, `destination` and the result after the call. -/
def tryLoad (c : Cache) (identifier destination : Bytes) (now : UInt64) :
    Except Fault (Cache × Bytes × Bool) := do
  match c.mapping.lookup identifier with
  | none => return (c, destination, false)
  | some index =>
    let n ← c.deref (some index)
    let destination := n.serialize destination
    let c ← c.removeFromList index
    let c ← c.appendToEndOfList index
    let c ← c.modify (some index) (CacheNode.updateTimeStamp now)
    return (c, destination, true)

/-- `Cache::EvitOne`. The `size_t` subtraction from `current_size_` is stored back in an `int`,
which is subtraction modulo `2^32`. -/
def evitOne (c : Cache) : Except Fault Cache := do
  let header ← c.deref (some c.dummyHeader)
  if header.next = some c.dummyTailer then
    throw (.assertFailed .evitOneListNotEmpty)
  let firstNode ← c.deref header.next
  let resourceSize := firstNode.size
  match c.mapping.lookup firstNode.identifier with
  | none => throw (.assertFailed .evitOneMapped)
  | some iter =>
    let c ← c.removeFromList iter
    let c := { c with mapping := c.mapping.erase firstNode.identifier }
    let c := c.free iter
    return { c with currentSize := c.currentSize - Int32.ofNat resourceSize }

/-- The eviction loop of `Cache::TryInsert`, for at most `fuel` tests of its condition. -/
def evictWhile (neededSize : Int32) : ℕ → Cache → Except Fault Cache
  | 0, _ => .error .endless
  | fuel + 1, c =>
    if c.capacity - c.currentSize < neededSize ∧ c.mapping.keys ≠ [] then do
      let c ← c.evitOne
      evictWhile neededSize fuel c
    else
      .ok c

/-- `Cache::TryInsert`. Every turn of the eviction loop erases an entry of `mapping_`, so the
loop tests its condition at most once more than there are entries. -/
def tryInsert (A : Allocator) (c : Cache) (resourceIdentifier source : Bytes) (now : UInt64) :
    Except Fault (Cache × Bool) := do
  if (c.mapping.lookup resourceIdentifier).isSome then
    return (c, false)
  let neededSize := Int32.ofNat source.length
  if neededSize > c.capacity then
    return (c, false)
  let c ← c.evictWhile neededSize (c.mapping.keys.length + 1)
  let newNode := A.next c.heap.keys
  let c := { c with heap := c.heap.insert newNode (CacheNode.make resourceIdentifier source now) }
  let c ← c.appendToEndOfList newNode
  let c := { c with currentSize := c.currentSize + neededSize }
  return ({ c with mapping := c.mapping.insert resourceIdentifier newNode }, true)

/-- `Cache::Clear`. Clearing `mapping_` frees every node stored in it. -/
def clear (c : Cache) : Except Fault Cache := do
  let c ← c.setPrev (some c.dummyTailer) (some c.dummyHeader)
  let c ← c.setNext (some c.dummyHeader) (some c.dummyTailer)
  let nodes := c.mapping.keys.filterMap c.mapping.lookup
  let c := nodes.foldl free c
  return { c with mapping := ∅, currentSize := 0 }

/-- The entries met on the way from `p` to the tailer, along `next_`. -/
def contentsFrom (c : Cache) : ℕ → Option Addr → List (Bytes × Bytes)
  | 0, _ => []
  | _ + 1, none => []
  | fuel + 1, some a =>
    if a = c.dummyTailer then []
    else match c.heap.lookup a with
      | none => []
      | some n => (n.identifier, n.data) :: c.contentsFrom fuel n.next

/-- The entries of the cache as its linked list has them, least recently used first. -/
def contents (c : Cache) : List (Bytes × Bytes) :=
  c.contentsFrom c.heap.keys.length ((c.heap.lookup c.dummyHeader).bind CacheNode.next)

/-- `Cache::GetCapacity`. -/
def getCapacity (c : Cache) : Int32 := c.capacity

/-- `Cache::GetCurSize`. -/
def getCurSize (c : Cache) : Int32 := c.currentSize

end Cache

/-! ## Sequences of calls -/

/-- A complete call of one of the three operations, with the clock value it would read. -/
inductive CacheOp
  | tryLoad (identifier destination : Bytes) (now : UInt64)
  | tryInsert (resourceIdentifier source : Bytes) (now : UInt64)
  | clear
  deriving DecidableEq

/-- What a call gives back: the result of `TryLoad` with the contents of `destination` after
it, the result of `TryInsert`, or nothing. -/
inductive CacheResult
  | loaded (destination : Bytes) (found : Bool)
  | inserted (done : Bool)
  | cleared
  deriving DecidableEq

/-- One call. -/
def Cache.call (A : Allocator) (c : Cache) : CacheOp → Except Fault (Cache × CacheResult)
  | .tryLoad identifier destination now => do
    let (c, destination, found) ← c.tryLoad identifier destination now
    return (c, .loaded destination found)
  | .tryInsert resourceIdentifier source now => do
    let (c, done) ← c.tryInsert A resourceIdentifier source now
    return (c, .inserted done)
  | .clear => do
    let c ← c.clear
    return (c, .cleared)

/-- A finite sequence of calls, one after the other, with all their results. -/
def Cache.run (A : Allocator) (c : Cache) : List CacheOp → Except Fault (Cache × List CacheResult)
  | [] => .ok (c, [])
  | op :: ops => do
    let (c, r) ← c.call A op
    let (c, rs) ← Cache.run A c ops
    return (c, r :: rs)

/-- The caches a program can hold: what a finite sequence of calls makes of a new cache. -/
def Cache.Reachable (A : Allocator) (c : Cache) : Prop :=
  ∃ capacity now₁ now₂ ops rs, (Cache.make A capacity now₁ now₂).run A ops = .ok (c, rs)

end Icee
