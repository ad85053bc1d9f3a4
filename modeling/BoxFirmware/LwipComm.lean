import BoxFirmware.EthRx
import BoxFirmware.EthTx
import BoxFirmware.Malloc
import Mathlib.Data.List.Nodup

/-! The bring-up of the network: `lwip_comm_init`, which `main` calls until it returns 0,
on the pool `SRAMIN`. The results of the hardware, of `OSQCreate` and of `netif_add` are
inputs; what the network stack does with its blocks is left out. -/
namespace BoxFirmware.LwipComm
open GuardedRun Malloc RunMap
open EthRx (ethRxBufNb ethRxBufSize)
open EthTx (ethTxBufNb ethTxBufSize)

def ethDmaDescSize : Nat := 32

/-- The pools of `memp_std.h`: how many elements, and the aligned size of one. -/
def mempPools : List (Nat × Nat) :=
  [(4, 28), (6, 32), (10, 148), (6, 28), (15, 20), (5, 32), (15, 24), (2, 16), (4, 48), (8, 20),
    (8, 20), (8, 16), (1, 308), (20, 16), (20, 528)]

def memAlignment : Nat := 4
def memSize : Nat := 16000
def tcpipThreadStacksize : Nat := 1000
def lwipDhcpStkSize : Nat := 128

def lwipMemAlignSize (size : Nat) : Nat := (size + memAlignment - 1) / memAlignment * memAlignment

def mempGetMemorysize : Nat := memAlignment - 1 + (mempPools.map (fun pool => pool.1 * pool.2)).sum

def ethSizes : List Nat :=
  [ethRxBufNb * ethDmaDescSize, ethTxBufNb * ethDmaDescSize, ethRxBufSize * ethRxBufNb,
    ethTxBufSize * ethTxBufNb]

def lwipSizes : List Nat :=
  [mempGetMemorysize, lwipMemAlignSize memSize + 2 * lwipMemAlignSize (4 * 3) + memAlignment,
    tcpipThreadStacksize * 4, lwipDhcpStkSize * 4]

/-- `sizeof(TQ_DESCR)`: a pointer and `MAX_QUEUE_ENTRIES` entries. -/
def tqDescrSize : Nat := 4 + 20 * 4

section Model

variable (L : Layout)

def mallocs : List Nat → Pool → List Nat × Pool
  | [], p => ([], p)
  | size :: sizes, p =>
    let r := mymalloc L .sramin p size
    let rest := mallocs sizes r.2
    (r.1 :: rest.1, rest.2)

def frees : List Nat → Pool → Pool
  | [], p => p
  | ptr :: ptrs, p => frees ptrs (myfree L .sramin p ptr)

def memMalloc (sizes : List Nat) (p : Pool) : Nat × Pool :=
  let r := mallocs L sizes p
  if 0 ∈ r.1 then (1, frees L r.1 r.2) else (0, r.2)

def ethMemMalloc (p : Pool) : Nat × Pool := memMalloc L ethSizes p

def lwipCommMemMalloc (p : Pool) : Nat × Pool := memMalloc L lwipSizes p

/-- The mailbox of `tcpip_init`: its block goes back when `OSQCreate` has no queue. -/
def sysMboxNew (queue : Bool) (p : Pool) : Pool :=
  let r := mymalloc L .sramin p tqDescrSize
  if r.1 = 0 ∨ queue then r.2 else myfree L .sramin r.2 r.1

/-- What one attempt meets: whether `LAN8720_Init` fails, whether `OSQCreate` finds a
queue, and whether `netif_add` returns `NULL`. -/
structure Attempt where
  lan8720Fails : Bool
  queue : Bool
  netifFails : Bool

def lwipCommInit (a : Attempt) (p : Pool) : Nat × Pool :=
  let eth := ethMemMalloc L p
  if eth.1 ≠ 0 then (1, eth.2)
  else
    let lwip := lwipCommMemMalloc L eth.2
    if lwip.1 ≠ 0 then (1, lwip.2)
    else if a.lan8720Fails then (2, lwip.2)
    else
      let p := sysMboxNew L a.queue lwip.2
      if a.netifFails then (3, p) else (0, p)

structure Box where
  pool : Pool
  up : Bool

def attempt (a : Attempt) (s : Box) : Box :=
  if s.up then s
  else
    let r := lwipCommInit L a s.pool
    ⟨r.2, r.1 = 0⟩

def Room (sizes : List Nat) (p : Pool) : Prop := 0 ∉ (mallocs L sizes p).1

/-- An attempt that gets its Ethernet blocks succeeds. -/
def Succeeds (a : Attempt) (s : Box) : Prop :=
  s.up = false → Room L ethSizes s.pool →
    Room L (ethSizes ++ lwipSizes) s.pool ∧ a.lan8720Fails = false ∧ a.netifFails = false

end Model

/-- Two states of the allocation map with the same entries. -/
def SameMap (p q : Pool) : Prop := ∀ i < memtblsize .sramin, q.memmap i = p.memmap i

section Blocks

variable {L : Layout} {p : Pool} {live : List Alloc}

theorem mallocs_append (sizes more : List Nat) (p : Pool) :
    (mallocs L (sizes ++ more) p).1 =
      (mallocs L sizes p).1 ++ (mallocs L more (mallocs L sizes p).2).1 := by
  induction sizes generalizing p with
  | nil => rfl
  | cons size sizes ih => simp [mallocs, ih]

theorem mallocs_length (sizes : List Nat) (p : Pool) :
    (mallocs L sizes p).1.length = sizes.length := by
  induction sizes generalizing p with
  | nil => rfl
  | cons size sizes ih => simp [mallocs, ih]

theorem owned_nodup (owned : Owned L .sramin p live) : (live.map Alloc.ptr).Nodup := by
  rw [List.Nodup, List.pairwise_map]
  apply (List.pairwise_map.mp owned.tiles.apart).imp_of_mem
  intro a b ha hb apart same
  have lenA := (owned.tiles.inside _ (List.mem_map_of_mem ha)).1
  have lenB := (owned.tiles.inside _ (List.mem_map_of_mem hb)).1
  have startA := owned.placed a ha
  have startB := owned.placed b hb
  simp only [Run.Apart] at apart
  omega

theorem owned_ptr_pos (owned : Owned L .sramin p live) {a : Alloc} (ha : a ∈ live) : a.ptr ≠ 0 := by
  have place := owned.placed a ha
  have pos := L.pos .sramin
  omega

theorem mallocs_owned (sizes : List Nat) (small : ∀ size ∈ sizes, size ≤ memsize .sramin)
    (owned : Owned L .sramin p live) :
    ∃ new, Owned L .sramin (mallocs L sizes p).2 (new ++ live) ∧
      (mallocs L sizes p).1.filter (· ≠ 0) = (new.map Alloc.ptr).reverse := by
  induction sizes generalizing p live with
  | nil => exact ⟨[], owned, rfl⟩
  | cons size sizes ih =>
    have first := owned.malloc size (small size (by simp))
    obtain ⟨new, rest, results⟩ := ih (fun n hn => small n (by simp [hn])) first
    simp only [mallocs]
    by_cases null : (mymalloc L .sramin p size).1 = 0
    · rw [if_pos null] at rest
      refine ⟨new, rest, ?_⟩
      rw [List.filter_cons, if_neg (by simp [null]), results]
    · rw [if_neg null] at rest
      refine ⟨new ++ [⟨(mymalloc L .sramin p size).1, size⟩], ?_, ?_⟩
      · rw [List.append_assoc]
        exact rest
      · rw [List.filter_cons, if_pos (by simpa using null), results]
        simp

theorem frees_owned (ptrs : List Nat) (owned : Owned L .sramin p live)
    (once : (ptrs.filter (· ≠ 0)).Nodup)
    (ok : ∀ ptr ∈ ptrs, ptr = 0 ∨ ∃ a ∈ live, a.ptr = ptr) :
    Owned L .sramin (frees L ptrs p) (live.filter (fun a => a.ptr ∉ ptrs)) := by
  induction ptrs generalizing p live with
  | nil => simpa [frees] using owned
  | cons ptr ptrs ih =>
    have first := owned.free ptr (ok ptr (by simp))
    have rest := ih first (once.sublist ((List.sublist_cons_self ptr ptrs).filter _)) (by
      intro q hq
      by_cases null : q = 0
      · exact .inl null
      · obtain ⟨a, ha, same⟩ := (ok q (by simp [hq])).resolve_left null
        refine .inr ⟨a, List.mem_filter.mpr ⟨ha, ?_⟩, same⟩
        have other : q ≠ ptr := by
          rintro rfl
          rw [List.filter_cons, if_pos (by simpa using null)] at once
          exact (List.nodup_cons.mp once).1 (List.mem_filter.mpr ⟨hq, by simpa using null⟩)
        simpa [same] using other)
    rw [List.filter_filter] at rest
    have both : live.filter (fun a => decide (a.ptr ∉ ptrs) && decide (a.ptr ≠ ptr)) =
        live.filter (fun a => decide (a.ptr ∉ ptr :: ptrs)) := by
      apply List.filter_congr
      intro a _
      simp [Bool.and_comm]
    rwa [both] at rest

/-- Giving back the pointers of the blocks got on top leaves the blocks there were before. -/
theorem frees_back {ptrs : List Nat} {new : List Alloc}
    (owned : Owned L .sramin p (new ++ live))
    (got : ptrs.filter (· ≠ 0) = (new.map Alloc.ptr).reverse) :
    Owned L .sramin (frees L ptrs p) live := by
  have nodup := owned_nodup owned
  rw [List.map_append] at nodup
  obtain ⟨once, -, apart⟩ := List.nodup_append.mp nodup
  have freed := frees_owned ptrs owned
    (by rw [got]; exact List.nodup_reverse.mpr once) (by
      intro ptr member
      by_cases null : ptr = 0
      · exact .inl null
      · have named : ptr ∈ ptrs.filter (· ≠ 0) :=
          List.mem_filter.mpr ⟨member, by simpa using null⟩
        rw [got, List.mem_reverse] at named
        obtain ⟨a, ha, same⟩ := List.mem_map.mp named
        exact .inr ⟨a, List.mem_append_left live ha, same⟩)
  have named : ∀ a ∈ new ++ live, a.ptr ∈ ptrs ↔ a.ptr ∈ new.map Alloc.ptr := by
    intro a ha
    rw [← @List.mem_reverse _ a.ptr (new.map Alloc.ptr), ← got, List.mem_filter]
    simp [owned_ptr_pos owned ha]
  have left : (new ++ live).filter (fun a => a.ptr ∉ ptrs) = live := by
    rw [List.filter_append]
    have gone : new.filter (fun a => a.ptr ∉ ptrs) = [] := by
      apply List.filter_eq_nil_iff.mpr
      intro a ha
      simp [(named a (List.mem_append_left live ha)).mpr (List.mem_map_of_mem ha)]
    have kept : live.filter (fun a => a.ptr ∉ ptrs) = live := by
      apply List.filter_eq_self.mpr
      intro a ha
      have other : a.ptr ∉ new.map Alloc.ptr := fun member =>
        apart a.ptr member a.ptr (List.mem_map_of_mem ha) rfl
      simpa [named a (List.mem_append_right new ha)] using other
    rw [gone, kept, List.nil_append]
  rwa [left] at freed

theorem memMalloc_owned (sizes : List Nat) (small : ∀ size ∈ sizes, size ≤ memsize .sramin)
    (owned : Owned L .sramin p live) :
    (0 ∉ (mallocs L sizes p).1 ∧ memMalloc L sizes p = (0, (mallocs L sizes p).2) ∧
      ∃ new, new.length = sizes.length ∧ Owned L .sramin (mallocs L sizes p).2 (new ++ live)) ∨
    (0 ∈ (mallocs L sizes p).1 ∧ (memMalloc L sizes p).1 = 1 ∧
      Owned L .sramin (memMalloc L sizes p).2 live) := by
  obtain ⟨new, after, results⟩ := mallocs_owned sizes small owned
  by_cases failed : 0 ∈ (mallocs L sizes p).1
  · refine .inr ⟨failed, by rw [memMalloc, if_pos failed], ?_⟩
    have freed := frees_back after results
    rwa [memMalloc, if_pos failed]
  · refine .inl ⟨failed, by rw [memMalloc, if_neg failed], new, ?_, after⟩
    have all : (mallocs L sizes p).1.filter (· ≠ 0) = (mallocs L sizes p).1 := by
      apply List.filter_eq_self.mpr
      intro ptr member
      simpa using ne_of_mem_of_not_mem member failed
    rw [all] at results
    rw [← mallocs_length sizes p, results]
    simp

theorem sameMap_of_owned {q : Pool} (owned : Owned L .sramin p live)
    (after : Owned L .sramin q live) : SameMap p q :=
  fun _ hi => owned.tiles.map_eq after.tiles hi

theorem not_sameMap_of_owned {q : Pool} {new : List Alloc} (owned : Owned L .sramin p live)
    (some : new ≠ []) (after : Owned L .sramin q (new ++ live)) : ¬ SameMap p q := by
  obtain ⟨a, more, rfl⟩ := List.exists_cons_of_ne_nil some
  have tiles := after.tiles
  rw [List.cons_append, List.map_cons, List.map_append] at tiles
  obtain ⟨inside, differs⟩ := owned.tiles.map_ne tiles
  exact fun same => differs (same _ inside)

theorem sysMboxNew_owned (queue : Bool) (owned : Owned L .sramin p live) :
    ∃ more, Owned L .sramin (sysMboxNew L queue p) (more ++ live) := by
  have small : tqDescrSize ≤ memsize .sramin := by decide
  have first := owned.malloc tqDescrSize small
  unfold sysMboxNew
  by_cases null : (mymalloc L .sramin p tqDescrSize).1 = 0
  · rw [if_pos null] at first
    refine ⟨[], ?_⟩
    simpa [null] using first
  · rw [if_neg null] at first
    cases queue with
    | true =>
      refine ⟨[⟨(mymalloc L .sramin p tqDescrSize).1, tqDescrSize⟩], ?_⟩
      simpa using first
    | false =>
      have back := first.free _ (.inr ⟨_, List.mem_cons_self, rfl⟩)
      have other := (List.nodup_cons.mp (owned_nodup first)).1
      refine ⟨[], ?_⟩
      simp only [null, Bool.false_eq_true, or_self, if_false]
      rw [List.filter_cons, if_neg (by simp), List.filter_eq_self.mpr] at back
      · exact back
      · intro a ha
        have differs : a.ptr ≠ (mymalloc L .sramin p tqDescrSize).1 :=
          ne_of_mem_of_not_mem (List.mem_map_of_mem ha) other
        simpa using differs

theorem ethSizes_small : ∀ size ∈ ethSizes, size ≤ memsize .sramin := by decide

theorem lwipSizes_small : ∀ size ∈ lwipSizes, size ≤ memsize .sramin := by decide +kernel

theorem room_append (sizes more : List Nat) : Room L (sizes ++ more) p ↔
    Room L sizes p ∧ Room L more (mallocs L sizes p).2 := by
  rw [Room, mallocs_append, List.mem_append, not_or]
  rfl

theorem memMalloc_cases (sizes : List Nat) (some : sizes ≠ [])
    (small : ∀ size ∈ sizes, size ≤ memsize .sramin) (owned : Owned L .sramin p live) :
    (Room L sizes p ∧ memMalloc L sizes p = (0, (mallocs L sizes p).2) ∧
      ∃ new, new ≠ [] ∧ Owned L .sramin (mallocs L sizes p).2 (new ++ live)) ∨
    (¬ Room L sizes p ∧ (memMalloc L sizes p).1 = 1 ∧
      Owned L .sramin (memMalloc L sizes p).2 live) := by
  apply (memMalloc_owned sizes small owned).imp
  · rintro ⟨room, eq, new, count, after⟩
    refine ⟨room, eq, new, ?_, after⟩
    rintro rfl
    exact some (List.eq_nil_of_length_eq_zero count.symm)
  · rintro ⟨full, one, after⟩
    exact ⟨not_not.mpr full, one, after⟩

theorem lwipCommInit_eq (a : Attempt) (p : Pool) :
    ((ethMemMalloc L p).1 ≠ 0 → lwipCommInit L a p = (1, (ethMemMalloc L p).2)) ∧
    ((ethMemMalloc L p).1 = 0 → (lwipCommMemMalloc L (ethMemMalloc L p).2).1 ≠ 0 →
      lwipCommInit L a p = (1, (lwipCommMemMalloc L (ethMemMalloc L p).2).2)) ∧
    ((ethMemMalloc L p).1 = 0 → (lwipCommMemMalloc L (ethMemMalloc L p).2).1 = 0 →
      lwipCommInit L a p = if a.lan8720Fails then (2, (lwipCommMemMalloc L (ethMemMalloc L p).2).2)
        else (if a.netifFails then 3 else 0,
          sysMboxNew L a.queue (lwipCommMemMalloc L (ethMemMalloc L p).2).2)) := by
  unfold lwipCommInit
  dsimp only
  generalize ethMemMalloc L p = eth
  generalize lwipCommMemMalloc L eth.2 = lwip
  refine ⟨fun failed => if_pos failed, fun ok failed => ?_, fun ok okToo => ?_⟩
  · rw [if_neg (not_not.mpr ok), if_pos failed]
  · rw [if_neg (not_not.mpr ok), if_neg (not_not.mpr okToo)]
    cases a.netifFails <;> rfl

/-- An attempt that gets no Ethernet blocks leaves those that were live; any other leaves
more, and succeeds just when all its steps do. -/
theorem lwipCommInit_owned (a : Attempt) (owned : Owned L .sramin p live) :
    (¬ Room L ethSizes p ∧ (lwipCommInit L a p).1 = 1 ∧
      Owned L .sramin (lwipCommInit L a p).2 live) ∨
    (Room L ethSizes p ∧
      (∃ new, new ≠ [] ∧ Owned L .sramin (lwipCommInit L a p).2 (new ++ live)) ∧
      ((lwipCommInit L a p).1 = 0 ↔ Room L (ethSizes ++ lwipSizes) p ∧
        a.lan8720Fails = false ∧ a.netifFails = false)) := by
  obtain ⟨noEth, noLwip, go⟩ := lwipCommInit_eq (L := L) a p
  rw [room_append]
  obtain ⟨room, eth, eths, some, owned⟩ | ⟨full, eth, owned⟩ :=
    memMalloc_cases ethSizes (by simp [ethSizes]) ethSizes_small owned
  · refine .inr ⟨room, ?_⟩
    rw [← ethMemMalloc] at eth
    generalize (mallocs L ethSizes p).2 = p₁ at eth owned ⊢
    rw [eth] at noLwip go
    obtain ⟨roomToo, lwip, lwips, -, owned⟩ | ⟨full, lwip, owned⟩ :=
      memMalloc_cases lwipSizes (by simp [lwipSizes]) lwipSizes_small owned
    · rw [← lwipCommMemMalloc] at lwip
      generalize (mallocs L lwipSizes p₁).2 = p₂ at lwip owned
      rw [go rfl (by rw [lwip]), lwip]
      have nonempty : ∀ front : List Alloc, front ++ eths ≠ [] := by simp [some]
      by_cases lan : a.lan8720Fails = true
      · rw [if_pos lan]
        refine ⟨⟨lwips ++ eths, nonempty lwips, ?_⟩, by simp [lan]⟩
        rwa [List.append_assoc]
      · rw [if_neg lan]
        obtain ⟨more, after⟩ := sysMboxNew_owned a.queue owned
        refine ⟨⟨more ++ lwips ++ eths, nonempty _, ?_⟩, ?_⟩
        · rwa [List.append_assoc, List.append_assoc]
        · simp [lan, room, roomToo]
    · rw [← lwipCommMemMalloc] at lwip owned
      rw [noLwip rfl (by simp [lwip])]
      exact ⟨⟨eths, some, owned⟩, by simp [full]⟩
  · rw [← ethMemMalloc] at eth owned
    rw [noEth (by simp [eth])]
    exact .inl ⟨full, rfl, owned⟩

end Blocks

section Runs

variable {L : Layout}

/-- A failing attempt leaves the map as it was just when it did not get its Ethernet blocks. -/
theorem attempt_sameMap (a : Attempt) {s : Box} {live : List Alloc}
    (owned : Owned L .sramin s.pool live) :
    ((attempt L a s).up = false → SameMap s.pool (attempt L a s).pool) ↔ Succeeds L a s := by
  cases up : s.up with
  | true => simp [attempt, Succeeds, up]
  | false =>
    have shown : ((attempt L a s).up = false → SameMap s.pool (attempt L a s).pool) ↔
        ((lwipCommInit L a s.pool).1 ≠ 0 → SameMap s.pool (lwipCommInit L a s.pool).2) := by
      simp [attempt, up]
    rw [shown, Succeeds]
    obtain ⟨full, -, after⟩ | ⟨room, ⟨new, some, after⟩, succeeds⟩ := lwipCommInit_owned a owned
    · exact iff_of_true (fun _ => sameMap_of_owned owned after) (fun _ room => absurd room full)
    · have other := not_sameMap_of_owned owned some after
      rw [← succeeds]
      constructor
      · intro keeps _ _
        by_contra failed
        exact other (keeps failed)
      · intro right failed
        exact absurd (right up room) failed

theorem attempt_owned (a : Attempt) {s : Box} (owned : ∃ live, Owned L .sramin s.pool live) :
    ∃ live, Owned L .sramin (attempt L a s).pool live := by
  obtain ⟨live, owned⟩ := owned
  unfold attempt
  split
  · exact ⟨live, owned⟩
  · obtain ⟨-, -, after⟩ | ⟨-, ⟨new, -, after⟩, -⟩ := lwipCommInit_owned a owned
    · exact ⟨live, after⟩
    · exact ⟨new ++ live, after⟩

/-- In every run of the loop of `main`, from any state the allocator can be in, the failing
attempts leave the map of `SRAMIN` as it was just when every attempt that gets its four
Ethernet blocks succeeds. -/
theorem lwip_comm_init_kept (dev : Bank → Pool) (live : Bank → List Alloc)
    (reach : Reach L dev live) (as : List Attempt) :
    (∀ pre a, pre ++ [a] <+: as →
      (run (attempt L) (pre ++ [a]) ⟨dev .sramin, false⟩).up = false →
        SameMap (run (attempt L) pre ⟨dev .sramin, false⟩).pool
          (run (attempt L) (pre ++ [a]) ⟨dev .sramin, false⟩).pool) ↔
      Along (attempt L) (Succeeds L) as ⟨dev .sramin, false⟩ := by
  rw [along_iff]
  refine forall₃_congr (fun pre a _ => ?_)
  have owned : ∃ live, Owned L .sramin (run (attempt L) pre ⟨dev .sramin, false⟩).pool live := by
    refine run_invariant (I := fun s : Box => ∃ live, Owned L .sramin s.pool live)
      (fun a s _ owned => attempt_owned a owned) (along_true (attempt L) pre _) ?_
    exact ⟨live .sramin, reach.owned .sramin⟩
  obtain ⟨live, owned⟩ := owned
  rw [run_append, run_cons, run_nil]
  exact attempt_sameMap a owned

theorem lwip_comm_init_kept_one :
    (∀ pre a, pre ++ [a] <+: [(⟨true, true, false⟩ : Attempt)] →
      (run (attempt mapLayout) (pre ++ [a]) ⟨⟨fun _ => 0, true⟩, false⟩).up = false →
        SameMap (run (attempt mapLayout) pre ⟨⟨fun _ => 0, true⟩, false⟩).pool
          (run (attempt mapLayout) (pre ++ [a]) ⟨⟨fun _ => 0, true⟩, false⟩).pool) ↔
      Along (attempt mapLayout) (Succeeds mapLayout) [⟨true, true, false⟩]
        ⟨⟨fun _ => 0, true⟩, false⟩ :=
  lwip_comm_init_kept (fun _ => ⟨fun _ => 0, true⟩) (fun _ => [])
    (Reach.start (fun _ => ⟨fun _ => 0, true⟩) (fun _ _ => rfl)) [⟨true, true, false⟩]

/-- It has the five entries of the receive descriptors set behind it. -/
theorem lwip_comm_init_keeps_blocks :
    ∃ a : Attempt, (attempt mapLayout a ⟨⟨fun _ => 0, true⟩, false⟩).up = false ∧
      (attempt mapLayout a ⟨⟨fun _ => 0, true⟩, false⟩).pool.memmap 2559 = 5 ∧
      ¬ SameMap ⟨fun _ => 0, true⟩ (attempt mapLayout a ⟨⟨fun _ => 0, true⟩, false⟩).pool := by
  have failed : (attempt mapLayout ⟨true, true, false⟩ ⟨⟨fun _ => 0, true⟩, false⟩).up = false ∧
      (attempt mapLayout ⟨true, true, false⟩ ⟨⟨fun _ => 0, true⟩, false⟩).pool.memmap 2559 = 5 := by
    decide +kernel
  refine ⟨⟨true, true, false⟩, failed.1, failed.2, fun same => ?_⟩
  have entry := same 2559 (by decide)
  rw [failed.2] at entry
  exact absurd entry (by decide)

end Runs

end BoxFirmware.LwipComm
