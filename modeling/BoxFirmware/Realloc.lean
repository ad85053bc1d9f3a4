import BoxFirmware.ByteMem
import BoxFirmware.MallocFit

/-! `myrealloc` of `malloc.c`: a new block, `size` bytes copied into it from the old
address, and a free of the old block. The old size is never looked up, so a block that
grows is read past its end. Here the bytes of the memory are part of the state, apart
from the maps, and a copy records the addresses it reads. -/
namespace BoxFirmware.Malloc
open RunMap ByteMem

def mymemcpy : (n des src : Nat) → Mem → List Nat × Mem
  | 0, _, _, m => ([], m)
  | n + 1, des, src, m =>
    let rest := mymemcpy n ((des + 1) % 2^32) ((src + 1) % 2^32)
      (Function.update m des (m src))
    (src :: rest.1, rest.2)

structure Outcome where
  ptr : Nat
  pool : Pool
  mem : Mem
  reads : List Nat

/-- The bytes of a pool that `mymem_init` readies first. -/
def mymemInitBytes (L : Layout) (memx : Bank) (p : Pool) (m : Mem) : Mem :=
  if p.memrdy then m else store m (L.membase memx) (fun _ => 0) (memsize memx)

def myrealloc (L : Layout) (memx : Bank) (p : Pool) (m : Mem) (ptr size : Nat) : Outcome :=
  let m := mymemInitBytes L memx p m
  let r := mymemMalloc memx p size
  if r.1 = 0xFFFFFFFF then ⟨0, r.2, m, []⟩
  else
    let copied := mymemcpy size ((L.membase memx + r.1) % 2^32) ptr m
    ⟨(L.membase memx + r.1) % 2^32, myfree L memx r.2 ptr, copied.2, copied.1⟩

section Copy

theorem mymemcpy_reads (n des src : Nat) (m : Mem) (word : src < 2^32) :
    (mymemcpy n des src m).1 = (List.range n).map (fun i => (src + i) % 2^32) := by
  induction n generalizing des src m with
  | zero => rfl
  | succ n ih =>
    rw [mymemcpy, List.range_succ_eq_map]
    simp only [List.map_cons, List.map_map, Nat.add_zero, Nat.mod_eq_of_lt word]
    rw [ih _ _ _ (Nat.mod_lt _ (by decide))]
    congr 1
    refine List.map_congr_left (fun i _ => ?_)
    simp only [Function.comp_apply, Nat.succ_eq_add_one]
    omega

theorem mymemcpy_frame (n des src : Nat) (m : Mem) (fit : des + n ≤ 2^32) {x : Nat}
    (out : x < des ∨ des + n ≤ x) : (mymemcpy n des src m).2 x = m x := by
  induction n generalizing des src m with
  | zero => rfl
  | succ n ih =>
    rw [mymemcpy]
    dsimp only
    rw [ih _ _ _ (by omega) (by omega)]
    exact Function.update_of_ne (by omega) _ _

theorem mymemcpy_at (n des src : Nat) (m : Mem) (fit : des + n ≤ 2^32) {i : Nat} (hi : i < n)
    (apart : (src + i) % 2^32 < des ∨ des + n ≤ (src + i) % 2^32) (word : src < 2^32) :
    (mymemcpy n des src m).2 (des + i) = m ((src + i) % 2^32) := by
  induction n generalizing des src m i with
  | zero => omega
  | succ n ih =>
    rw [mymemcpy]
    dsimp only
    cases i with
    | zero =>
      rw [mymemcpy_frame _ _ _ _ (by omega) (by omega), Nat.add_zero, Nat.add_zero,
        Function.update_self, Nat.mod_eq_of_lt word]
    | succ i =>
      have place : des + (i + 1) = (des + 1) % 2^32 + i := by omega
      have source : ((src + 1) % 2^32 + i) % 2^32 = (src + (i + 1)) % 2^32 := by omega
      rw [place, ih _ _ _ (by omega) (by omega) (by omega) (by omega), source]
      exact Function.update_of_ne (by omega) _ _

end Copy

section Call

variable {L : Layout} {memx : Bank} {p : Pool} {size : Nat}

theorem mymalloc_null (ready : p.memrdy = true) (small : size ≤ memsize memx) :
    (mymalloc L memx p size).1 = 0 ↔
      size = 0 ∨ ∀ start, ¬ FreeRun memx p start ((size + 31) / 32) := by
  have fresh : Fresh memx p := fun idle => by simp [ready] at idle
  have table := memtblsize_mul memx
  have base := L.fits memx
  have pos := L.pos memx
  by_cases empty : size = 0
  · subst empty
    simp [mymalloc, (mymemMalloc_zero fresh).1]
  · rcases mymemMalloc_fresh fresh small empty with ⟨start, free, -, result, -⟩ | ⟨none, failed, -⟩
    · have fit := free.1
      have valid : ¬ 32 * start = 0xFFFFFFFF := by omega
      have null : ¬ (L.membase memx + 32 * start) % 2^32 = 0 := by omega
      simp only [mymalloc, result, valid, if_false, null, empty, false_or, false_iff]
      exact fun full => full start free
    · simp only [mymalloc, failed, if_true, true_iff]
      exact .inr none

theorem myrealloc_eq (ready : p.memrdy = true) (small : size ≤ memsize memx) (m : Mem)
    (ptr : Nat) :
    myrealloc L memx p m ptr size =
      if (mymalloc L memx p size).1 = 0 then ⟨0, (mymalloc L memx p size).2, m, []⟩
      else ⟨(mymalloc L memx p size).1, myfree L memx (mymalloc L memx p size).2 ptr,
        (mymemcpy size (mymalloc L memx p size).1 ptr m).2,
        (mymemcpy size (mymalloc L memx p size).1 ptr m).1⟩ := by
  have bytes : mymemInitBytes L memx p m = m := by simp [mymemInitBytes, ready]
  by_cases failed : (mymemMalloc memx p size).1 = 0xFFFFFFFF
  · simp only [myrealloc, mymalloc, bytes, failed, if_true]
  · have success : ¬ (L.membase memx + (mymemMalloc memx p size).1) % 2^32 = 0 := by
      intro zero
      have null := mymalloc_null (L := L) ready small
      simp only [mymalloc, failed, if_false, zero, true_iff] at null
      have fresh : Fresh memx p := fun idle => by simp [ready] at idle
      rcases null with empty | full
      · subst empty
        exact failed (mymemMalloc_zero fresh).1
      · by_cases empty : size = 0
        · subst empty
          exact failed (mymemMalloc_zero fresh).1
        · rcases mymemMalloc_fresh fresh small empty with ⟨start, free, -⟩ | ⟨-, none, -⟩
          · exact full start free
          · exact failed none
    simp only [myrealloc, mymalloc, bytes, failed, if_false, success]

theorem Owned.head_ne {live : List Alloc} {a : Alloc} (h : Owned L memx p (a :: live)) :
    ∀ b ∈ live, b.ptr ≠ a.ptr :=
  @Owned.ptr_ne L memx p [] live a h

/-- The live allocations behind a call that returned `new`. -/
def reallocLive (live : List Alloc) (ptr size new : Nat) : List Alloc :=
  if new = 0 then live else ⟨new, size⟩ :: live.filter (·.ptr ≠ ptr)

theorem myrealloc_ready (m : Mem) (ptr : Nat) :
    myrealloc L memx p m ptr size = myrealloc L memx
      (if p.memrdy then p else mymemInit memx p) (mymemInitBytes L memx p m) ptr size := by
  cases rdy : p.memrdy <;> simp [myrealloc, mymemMalloc, mymemInitBytes, mymemInit, rdy]

theorem Owned.realloc {live : List Alloc} (m : Mem) (ptr : Nat) (small : size ≤ memsize memx)
    (ok : ptr = 0 ∨ ∃ a ∈ live, a.ptr = ptr) (h : Owned L memx p live) :
    Owned L memx (myrealloc L memx p m ptr size).pool
      (reallocLive live ptr size (myrealloc L memx p m ptr size).ptr) := by
  obtain ⟨owned, ready⟩ := h.ready
  rw [myrealloc_ready]
  generalize (if p.memrdy then p else mymemInit memx p) = q at owned ready ⊢
  have taken := owned.malloc size small
  rw [myrealloc_eq ready small]
  by_cases null : (mymalloc L memx q size).1 = 0
  · simpa only [null, if_true, reallocLive] using taken
  · rw [if_neg null] at taken
    have other : (mymalloc L memx q size).1 ≠ ptr := by
      rcases ok with rfl | ⟨a, ha, rfl⟩
      · exact null
      · exact (taken.head_ne a ha).symm
    have freed := taken.free ptr (by
      rcases ok with zero | ⟨a, ha, same⟩
      · exact .inl zero
      · exact .inr ⟨a, List.mem_cons_of_mem _ ha, same⟩)
    rw [List.filter_cons_of_pos (by simpa using other)] at freed
    simpa only [null, if_false, reallocLive] using freed

end Call

/-- Every sequence of calls of the three functions on the three pools: sizes up to the
pool's, frees and reallocations of `NULL` or a live result, and any bytes in the memory. -/
inductive Used (L : Layout) : (Bank → Pool) → (Bank → List Alloc) → Prop
  | start (dev : Bank → Pool) (zero : ∀ memx i, (dev memx).memmap i = 0) :
      Used L dev (fun _ => [])
  | malloc {dev live} (memx : Bank) (size : Nat) (small : size ≤ memsize memx)
      (h : Used L dev live) :
      Used L (Function.update dev memx (mymalloc L memx (dev memx) size).2)
        (Function.update live memx (if (mymalloc L memx (dev memx) size).1 = 0 then live memx
          else ⟨(mymalloc L memx (dev memx) size).1, size⟩ :: live memx))
  | realloc {dev live} (memx : Bank) (m : Mem) (ptr size : Nat) (small : size ≤ memsize memx)
      (ok : ptr = 0 ∨ ∃ a ∈ live memx, a.ptr = ptr) (h : Used L dev live) :
      Used L (Function.update dev memx (myrealloc L memx (dev memx) m ptr size).pool)
        (Function.update live memx (reallocLive (live memx) ptr size
          (myrealloc L memx (dev memx) m ptr size).ptr))
  | free {dev live} (memx : Bank) (ptr : Nat) (ok : ptr = 0 ∨ ∃ a ∈ live memx, a.ptr = ptr)
      (h : Used L dev live) :
      Used L (Function.update dev memx (myfree L memx (dev memx) ptr))
        (Function.update live memx ((live memx).filter (·.ptr ≠ ptr)))

theorem Used.owned {L : Layout} {dev : Bank → Pool} {live : Bank → List Alloc}
    (h : Used L dev live) (memx : Bank) : Owned L memx (dev memx) (live memx) := by
  induction h generalizing memx with
  | start dev zero => exact ⟨fun _ => rfl, Tiles.nil _ _ (fun i _ => zero memx i), by simp⟩
  | malloc b size small _ ih =>
    by_cases same : memx = b
    · subst same
      simpa only [Function.update_self] using (ih memx).malloc size small
    · simpa only [Function.update_of_ne same] using ih memx
  | realloc b m ptr size small ok _ ih =>
    by_cases same : memx = b
    · subst same
      simpa only [Function.update_self] using (ih memx).realloc m ptr small ok
    · simpa only [Function.update_of_ne same] using ih memx
  | free b ptr ok _ ih =>
    by_cases same : memx = b
    · subst same
      simpa only [Function.update_self] using (ih memx).free ptr ok
    · simpa only [Function.update_of_ne same] using ih memx

def Alloc.room (L : Layout) (memx : Bank) (a : Alloc) : Nat := 32 * (a.run L memx).len

/-- What a reallocation of the live allocation `a` to `size` bytes has to do. -/
structure Reallocated (L : Layout) (memx : Bank) (p : Pool) (m : Mem) (live : List Alloc)
    (a : Alloc) (size : Nat) (o : Outcome) : Prop where
  result : (o.ptr = 0 ∧ o.pool.memmap = p.memmap ∧ o.mem = m ∧ Owned L memx o.pool live) ∨
    (o.ptr ≠ 0 ∧ Owned L memx o.pool (⟨o.ptr, size⟩ :: live.filter (·.ptr ≠ a.ptr)) ∧
      slice o.mem o.ptr (min a.size size) = slice m a.ptr (min a.size size))
  inside : ∀ x ∈ o.reads, a.ptr ≤ x ∧ x < a.ptr + a.room L memx
  others : ∀ b ∈ live, b.ptr ≠ a.ptr →
    slice o.mem b.ptr (b.room L memx) = slice m b.ptr (b.room L memx) ∧
      ∀ i, (b.run L memx).start ≤ i → i < (b.run L memx).start + (b.run L memx).len →
        o.pool.memmap i = p.memmap i
  outside : ∀ x, x < L.membase memx ∨ L.membase memx + memsize memx ≤ x → o.mem x = m x

section Moved

variable {L : Layout} {memx : Bank} {p : Pool} {live : List Alloc} {a b : Alloc} {size : Nat}

theorem Owned.room (h : Owned L memx p live) (ha : a ∈ live) :
    L.membase memx ≤ a.ptr ∧ a.size ≤ a.room L memx ∧ 0 < a.room L memx ∧
      a.ptr + a.room L memx ≤ L.membase memx + memsize memx := by
  have inside := h.tiles.inside _ (List.mem_map_of_mem ha)
  have place := h.placed a ha
  have table := memtblsize_mul memx
  simp only [Alloc.room]
  have len : (a.run L memx).len = (a.size + 31) / 32 := rfl
  omega

theorem Owned.rooms_apart (h : Owned L memx p live) (ha : a ∈ live) (hb : b ∈ live)
    (other : b.ptr ≠ a.ptr) :
    b.ptr + b.room L memx ≤ a.ptr ∨ a.ptr + a.room L memx ≤ b.ptr := by
  have apart := h.apart_of_ne ha hb other
  have placeA := h.placed a ha
  have placeB := h.placed b hb
  simp only [Run.Apart] at apart
  simp only [Alloc.room]
  omega

theorem mymemcpy_inside (h : Owned L memx p live) (ha : a ∈ live) (des : Nat) (m : Mem) :
    (∀ x ∈ (mymemcpy size des a.ptr m).1, a.ptr ≤ x ∧ x < a.ptr + a.room L memx) ↔
      size ≤ a.room L memx := by
  have base := L.fits memx
  have low := L.pos memx
  have room := h.room ha
  rw [mymemcpy_reads _ _ _ _ (by omega)]
  simp only [List.mem_map, List.mem_range, forall_exists_index, and_imp,
    forall_apply_eq_imp_iff₂]
  constructor
  · intro inside
    by_contra long
    -- the byte behind the last block
    have next := inside (a.room L memx) (by omega)
    omega
  · intro short i hi
    omega

theorem Owned.reallocated_iff (h : Owned L memx p live) (ha : a ∈ live)
    (small : size ≤ memsize memx) (m : Mem) :
    Reallocated L memx p m live a size (myrealloc L memx p m a.ptr size) ↔
      ∀ x ∈ (myrealloc L memx p m a.ptr size).reads,
        a.ptr ≤ x ∧ x < a.ptr + a.room L memx := by
  refine ⟨Reallocated.inside, fun inside => ?_⟩
  have ready := h.memrdy ha
  have owned := h.realloc m a.ptr small (.inr ⟨a, ha, rfl⟩)
  have taken := h.malloc size small
  rw [myrealloc_eq ready small] at inside owned ⊢
  by_cases null : (mymalloc L memx p size).1 = 0
  · simp only [null, if_true, reallocLive] at inside owned ⊢
    have kept : (mymalloc L memx p size).2 = p := by
      rcases mymalloc_cases L memx p size ready small with same | ⟨offset, -, -, -, eq⟩
      · rw [same]
      · have := L.pos memx
        rw [eq] at null
        dsimp only at null
        omega
    rw [kept] at owned ⊢
    exact ⟨.inl ⟨rfl, rfl, rfl, owned⟩, inside, fun _ _ _ => ⟨rfl, fun _ _ _ => rfl⟩,
      fun _ _ => rfl⟩
  · simp only [null, if_false, reallocLive] at inside owned taken ⊢
    -- the new block is a live allocation beside the old ones until the free
    have base := L.fits memx
    have new := taken.room (List.mem_cons_self ..)
    have old := h.room ha
    have away : ∀ b ∈ live, b.ptr + b.room L memx ≤ (mymalloc L memx p size).1 ∨
        (mymalloc L memx p size).1 + size ≤ b.ptr := by
      intro b hb
      have apart := taken.rooms_apart (List.mem_cons_self ..) (List.mem_cons_of_mem _ hb)
        (taken.head_ne b hb)
      dsimp only at apart new
      omega
    dsimp only at new
    refine ⟨.inr ⟨null, owned, slice_congr (fun i hi => ?_)⟩, inside, fun b hb other => ?_,
      fun x out => mymemcpy_frame _ _ _ _ (by omega) (by omega)⟩
    · have mine := away a ha
      have source : (a.ptr + i) % 2^32 = a.ptr + i := by omega
      dsimp only
      rw [mymemcpy_at _ _ _ _ (by omega) (by omega) (by omega) (by omega), source]
    · have theirs := away b hb
      refine ⟨slice_congr (fun i hi => mymemcpy_frame _ _ _ _ (by omega) (by omega)),
        fun i lower upper => ?_⟩
      have before := h.tiles.filled _ (List.mem_map_of_mem hb) i lower upper
      have after := owned.tiles.filled _ (List.mem_map_of_mem (List.mem_cons_of_mem _
        (List.mem_filter.mpr ⟨hb, by simpa using other⟩))) i lower upper
      rw [before, after]

end Moved

/-- A reallocation of a live allocation does what it has to do just when it fails, for a size
of 0 or for want of a free stretch, or when the blocks of the old allocation already hold the
new size: a block that grows further is read past its end. -/
theorem myrealloc_storage (L : Layout) (dev : Bank → Pool) (live : Bank → List Alloc)
    (used : Used L dev live) (memx : Bank) (a : Alloc) (ha : a ∈ live memx) (size : Nat)
    (small : size ≤ memsize memx) (m : Mem) :
    Reallocated L memx (dev memx) m (live memx) a size
        (myrealloc L memx (dev memx) m a.ptr size) ↔
      size = 0 ∨ (∀ start, ¬ FreeRun memx (dev memx) start ((size + 31) / 32)) ∨
        size ≤ a.room L memx := by
  have owned := used.owned memx
  have ready := owned.memrdy ha
  rw [owned.reallocated_iff ha small, myrealloc_eq ready small, ← or_assoc,
    ← mymalloc_null (L := L) ready small]
  by_cases null : (mymalloc L memx (dev memx) size).1 = 0
  · simp [null]
  · simp only [null, if_false, false_or]
    exact mymemcpy_inside owned ha _ m

theorem myrealloc_storage_shrink :
    ∃ dev live a, Used mapLayout dev live ∧ a ∈ live .sramin ∧
      Reallocated mapLayout .sramin (dev .sramin) (fun _ => 7) (live .sramin) a 50
        (myrealloc mapLayout .sramin (dev .sramin) (fun _ => 7) a.ptr 50) := by
  have used := Used.malloc .sramin 100 (by decide)
    (Used.start (L := mapLayout) (fun _ => ⟨fun _ => 0, true⟩) (fun _ _ => rfl))
  have member : (⟨0x20013f80, 100⟩ : Alloc) ∈
      Function.update (fun _ : Bank => ([] : List Alloc)) Bank.sramin
        (if (mymalloc mapLayout .sramin ⟨fun _ => 0, true⟩ 100).1 = 0 then []
          else [⟨(mymalloc mapLayout .sramin ⟨fun _ => 0, true⟩ 100).1, 100⟩]) .sramin := by
    have address : (mymalloc mapLayout .sramin ⟨fun _ => 0, true⟩ 100).1 = 0x20013f80 := by
      decide +kernel
    simp [address]
  exact ⟨_, _, _, used, member, (myrealloc_storage mapLayout _ _ used .sramin _ member 50
    (by decide) (fun _ => 7)).mpr (.inr (.inr (by decide)))⟩

/-- An allocation of 10 bytes that grows to 33: byte 33 is read behind its only block. -/
theorem myrealloc_storage_grow :
    ¬ ∀ (L : Layout) (dev : Bank → Pool) (live : Bank → List Alloc), Used L dev live →
      ∀ (memx : Bank) (a : Alloc), a ∈ live memx → ∀ size ≤ memsize memx, ∀ m : Mem,
        Reallocated L memx (dev memx) m (live memx) a size
          (myrealloc L memx (dev memx) m a.ptr size) := by
  intro all
  have used := Used.malloc .sramin 10 (by decide)
    (Used.start (L := mapLayout) (fun _ => ⟨fun _ => 0, true⟩) (fun _ _ => rfl))
  have address : (mymalloc mapLayout .sramin ⟨fun _ => 0, true⟩ 10).1 = 0x20013fe0 := by
    decide +kernel
  have member : (⟨0x20013fe0, 10⟩ : Alloc) ∈
      Function.update (fun _ : Bank => ([] : List Alloc)) Bank.sramin
        (if (mymalloc mapLayout .sramin ⟨fun _ => 0, true⟩ 10).1 = 0 then []
          else [⟨(mymalloc mapLayout .sramin ⟨fun _ => 0, true⟩ 10).1, 10⟩]) .sramin := by
    simp [address]
  have inside := (all _ _ _ used .sramin _ member 33 (by decide) (fun _ => 7)).inside 0x20014000
    (by rw [Function.update_self]; decide +kernel)
  exact absurd inside (by decide)

end BoxFirmware.Malloc
