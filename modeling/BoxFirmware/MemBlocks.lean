import BoxFirmware.MemHeap
import Mathlib.Order.Bounds.Basic

/-! Runs of `mem_malloc`, `mem_free` and `mem_trim` whose callers give back and trim only blocks
that they hold. -/
namespace BoxFirmware.MemBlocks
open GuardedRun Tiling MemHeap

structure Block where
  ptr : Nat
  asked : Nat

structure State where
  heap : Heap
  live : List Block

inductive Call where
  | malloc (size : Nat)
  | free (ptr : Nat)
  | trim (ptr newsize : Nat)

def step : Call → State → State
  | .malloc size, s =>
    match memMalloc s.heap size with
    | (none, heap) => { s with heap }
    | (some ptr, heap) => ⟨heap, ⟨ptr, size⟩ :: s.live⟩
  | .free ptr, s => ⟨memFree s.heap (some ptr), s.live.filter (fun b => b.ptr ≠ ptr)⟩
  | .trim ptr newsize, s =>
    match memTrim s.heap ptr newsize with
    | (none, heap) => { s with heap }
    | (some _, heap) => ⟨heap, s.live.map (fun b => if b.ptr = ptr then ⟨ptr, newsize⟩ else b)⟩

/-- The caller holds the block. -/
def Held : Call → State → Prop
  | .malloc _, _ => True
  | .free ptr, s => ∃ b ∈ s.live, b.ptr = ptr
  | .trim ptr _, s => ∃ b ∈ s.live, b.ptr = ptr

instance decidableHeld : (call : Call) → (s : State) → Decidable (Held call s)
  | .malloc _, _ => inferInstanceAs (Decidable True)
  | .free ptr, s => inferInstanceAs (Decidable (∃ b ∈ s.live, b.ptr = ptr))
  | .trim ptr _, s => inferInstanceAs (Decidable (∃ b ∈ s.live, b.ptr = ptr))

def afterInit (ram : Nat → StructMem) : State := ⟨memInit ram, []⟩

structure Owned (used : List Tile) (live : List Block) : Prop where
  held : ∀ t ∈ used, ∃ b ∈ live, b.ptr = t.start + sizeofStructMem
  tile : ∀ b ∈ live, ∃ t ∈ used, b.ptr = t.start + sizeofStructMem ∧
    b.ptr + request b.asked ≤ t.stop
  once : (live.map Block.ptr).Nodup

def Inv (s : State) : Prop := ∃ ts, Holds s.heap ts ∧ Owned (usedTiles ts) s.live

variable {s : State} {ts front back : List Tile} {t : Tile} {live : List Block}

theorem mem_usedTiles : t ∈ usedTiles ts ↔ t ∈ ts ∧ t.used = true := by
  simp [usedTiles, List.mem_filter]

theorem Owned.split (owned : Owned (usedTiles ts) live) {b : Block} (member : b ∈ live) :
    ∃ front t back, ts = front ++ t :: back ∧ t.used = true ∧ b.ptr = t.start + sizeofStructMem := by
  obtain ⟨t, inUse, place, -⟩ := owned.tile b member
  obtain ⟨member', used⟩ := mem_usedTiles.mp inUse
  obtain ⟨front, back, rfl⟩ := List.append_of_mem member'
  exact ⟨front, t, back, rfl, used, place⟩

theorem start_ne {h : Heap} (tiled : Tiled h (front ++ t :: back)) {u : Tile}
    (member : u ∈ front ++ back) : u.start ≠ t.start := by
  obtain ⟨-, left, positive, right⟩ := tiled.header
  rcases List.mem_append.mp member with before | behind
  · have inside := left.inside before
    omega
  · have inside := right.inside behind
    omega

theorem malloc_inv (inv : Inv s) (size : Nat) : Inv (step (.malloc size) s) := by
  obtain ⟨ts, holds, owned⟩ := inv
  simp only [step]
  rcases memMalloc_spec holds size with ⟨result, -⟩ |
    ⟨front, t, back, stop, back', rfl, -, fit, -, some, after, kept, room⟩
  · rw [result]
    exact ⟨ts, holds, owned⟩
  generalize memMalloc s.heap size = result at some after
  obtain ⟨ptr, heap⟩ := result
  obtain rfl : ptr = _ := some
  refine ⟨_, after, ?_⟩
  rw [usedTiles_append, usedTiles_cons_free fit.1] at owned
  rw [usedTiles_append, usedTiles_cons_used rfl, kept]
  have fresh : ∀ b ∈ s.live, b.ptr ≠ t.start + sizeofStructMem := by
    intro b member same
    obtain ⟨u, inUse, place, -⟩ := owned.tile b member
    rw [← usedTiles_append] at inUse
    exact start_ne holds.toTiled (mem_usedTiles.mp inUse).1 (by omega)
  refine ⟨fun u member => ?_, fun b member => ?_, ?_⟩
  · rcases List.mem_append.mp member with before | behind
    · obtain ⟨b, live, place⟩ := owned.held u (by simp [before])
      exact ⟨b, by simp [live], place⟩
    · rcases List.mem_cons.mp behind with rfl | later
      · exact ⟨⟨t.start + sizeofStructMem, size⟩, by simp, rfl⟩
      · obtain ⟨b, live, place⟩ := owned.held u (by simp [later])
        exact ⟨b, by simp [live], place⟩
  · rcases List.mem_cons.mp member with rfl | old
    · exact ⟨⟨t.start, stop, true⟩, by simp, rfl, room⟩
    · obtain ⟨u, inUse, place, fits⟩ := owned.tile b old
      refine ⟨u, ?_, place, fits⟩
      rcases List.mem_append.mp inUse with before | behind
      · simp [before]
      · simp [behind]
  · rw [List.map_cons, List.nodup_cons]
    refine ⟨fun member => ?_, owned.once⟩
    obtain ⟨b, live, place⟩ := List.mem_map.mp member
    exact fresh b live place

theorem free_inv (inv : Inv s) {b : Block} (live : b ∈ s.live) : Inv (step (.free b.ptr) s) := by
  obtain ⟨ts, holds, owned⟩ := inv
  obtain ⟨front, t, back, rfl, used, place⟩ := owned.split live
  obtain ⟨ts', after, kept⟩ := memFree_holds holds used
  rw [← place] at after
  refine ⟨ts', after, ?_⟩
  have tiled := holds.toTiled
  rw [kept]
  have part : ∀ u, u ∈ usedTiles (front ++ back) ↔
      u ∈ usedTiles (front ++ t :: back) ∧ u.start ≠ t.start := by
    intro u
    rw [mem_usedTiles, mem_usedTiles]
    constructor
    · rintro ⟨member, inUse⟩
      exact ⟨⟨by grind, inUse⟩, start_ne tiled member⟩
    · rintro ⟨⟨member, inUse⟩, other⟩
      exact ⟨by grind, inUse⟩
  refine ⟨fun u member => ?_, fun c member => ?_, ?_⟩
  · obtain ⟨inUse, other⟩ := (part u).mp member
    obtain ⟨c, live', place'⟩ := owned.held u inUse
    refine ⟨c, List.mem_filter.mpr ⟨live', ?_⟩, place'⟩
    exact decide_eq_true (by omega)
  · obtain ⟨live', other⟩ := List.mem_filter.mp member
    obtain ⟨u, inUse, place', fits⟩ := owned.tile c live'
    have apart : c.ptr ≠ b.ptr := of_decide_eq_true other
    exact ⟨u, (part u).mpr ⟨inUse, by omega⟩, place', fits⟩
  · exact owned.once.sublist (List.filter_sublist.map Block.ptr)

theorem trim_inv (inv : Inv s) {b : Block} (live : b ∈ s.live) (newsize : Nat) :
    Inv (step (.trim b.ptr newsize) s) := by
  obtain ⟨ts, holds, owned⟩ := inv
  obtain ⟨front, t, back, rfl, used, place⟩ := owned.split live
  have tiled := holds.toTiled
  simp only [step]
  rw [place]
  rcases memTrim_holds holds used newsize with result | ⟨some, stop, back', after, kept, room⟩
  · rw [result]
    exact ⟨_, holds, owned⟩
  generalize memTrim s.heap (t.start + sizeofStructMem) newsize = result at some after
  obtain ⟨ptr, heap⟩ := result
  obtain rfl : ptr = _ := some
  refine ⟨_, after, ?_⟩
  rw [usedTiles_append, usedTiles_cons_used rfl, kept]
  rw [usedTiles_append, usedTiles_cons_used used] at owned
  have others : ∀ u, u ∈ usedTiles front ++ usedTiles back → u.start ≠ t.start := by
    intro u member
    rw [← usedTiles_append] at member
    exact start_ne tiled (mem_usedTiles.mp member).1
  refine ⟨fun u member => ?_, fun c member => ?_, ?_⟩
  · by_cases other : u ∈ usedTiles front ++ usedTiles back
    · obtain ⟨c, live', place'⟩ := owned.held u (by grind)
      refine ⟨c, List.mem_map.mpr ⟨c, live', if_neg ?_⟩, place'⟩
      have apart := others u other
      omega
    · obtain rfl : u = ⟨t.start, stop, true⟩ := by grind
      exact ⟨_, List.mem_map.mpr ⟨b, live, if_pos place⟩, rfl⟩
  · obtain ⟨d, live', rfl⟩ := List.mem_map.mp member
    by_cases same : d.ptr = t.start + sizeofStructMem
    · rw [if_pos same]
      exact ⟨⟨t.start, stop, true⟩, by simp, rfl, room⟩
    · rw [if_neg same]
      obtain ⟨u, inUse, place', fits⟩ := owned.tile d live'
      exact ⟨u, by grind, place', fits⟩
  · rw [List.map_map]
    have ptrs : Block.ptr ∘ (fun c : Block => if c.ptr = t.start + sizeofStructMem
        then ⟨t.start + sizeofStructMem, newsize⟩ else c) = Block.ptr := by
      funext c
      simp only [Function.comp_apply]
      split <;> simp_all
    rw [ptrs]
    exact owned.once

theorem step_inv (call : Call) (inv : Inv s) (held : Held call s) : Inv (step call s) := by
  cases call with
  | malloc size => exact malloc_inv inv size
  | free ptr =>
    obtain ⟨b, live, rfl⟩ := held
    exact free_inv inv live
  | trim ptr newsize =>
    obtain ⟨b, live, rfl⟩ := held
    exact trim_inv inv live newsize

theorem afterInit_inv (ram : Nat → StructMem) : Inv (afterInit ram) :=
  ⟨_, memInit_holds ram, by simp [usedTiles], by simp [afterInit], by simp [afterInit]⟩

theorem run_inv (ram : Nat → StructMem) {calls : List Call}
    (held : Along step Held calls (afterInit ram)) : Inv (run step calls (afterInit ram)) :=
  run_invariant (fun call _ held inv => step_inv call inv held) held (afterInit_inv ram)

theorem le_request {size : Nat} (small : size ≤ 65532) : size ≤ request size := by
  have aligned : memAlignSize size = (size + 3) / 4 * 4 := by
    unfold memAlignSize
    omega
  unfold request
  omega

/-- The blocks that are held lie in the heap, aligned, and no block or header touches another
one. A size from 65533 on has become 0 by the rounding, and gets the least block. -/
theorem heap_blocks_apart (ram : Nat → StructMem) (calls : List Call)
    (held : Along step Held calls (afterInit ram)) :
    let live := (run step calls (afterInit ram)).live
    (∀ b ∈ live, sizeofStructMem ≤ b.ptr ∧ b.ptr % 4 = 0 ∧ b.ptr + request b.asked ≤ memSize ∧
        (b.asked ≤ 65532 → b.asked ≤ request b.asked)) ∧
      live.Pairwise fun b c => b.ptr + request b.asked + sizeofStructMem ≤ c.ptr ∨
        c.ptr + request c.asked + sizeofStructMem ≤ b.ptr := by
  obtain ⟨ts, holds, owned⟩ := run_inv ram held
  generalize run step calls (afterInit ram) = s at holds owned
  refine ⟨fun b member => ?_, ?_⟩
  · obtain ⟨t, inUse, place, room⟩ := owned.tile b member
    have inside := holds.fills.inside (mem_usedTiles.mp inUse).1
    have four := (holds.sizes t (mem_usedTiles.mp inUse).1).1
    simp only [sizeofStructMem] at place ⊢
    exact ⟨by omega, by omega, by omega, le_request⟩
  · refine (List.pairwise_map.mp owned.once).imp_of_mem fun {b c} first second other => ?_
    obtain ⟨t, inUse, place, room⟩ := owned.tile b first
    obtain ⟨u, inUse', place', room'⟩ := owned.tile c second
    rcases holds.fills.apart (mem_usedTiles.mp inUse).1 (mem_usedTiles.mp inUse').1 with
      rfl | before | behind
    · exact absurd (place.trans place'.symm) other
    · exact Or.inl (by omega)
    · exact Or.inr (by omega)

def someCalls : List Call :=
  [.malloc 20, .malloc 100, .malloc 5, .malloc 40, .free 36, .trim 164 17, .malloc 65533, .malloc 60]

theorem heap_blocks_apart_some :
    let live := (run step someCalls (afterInit fun _ => ⟨0, 0, false⟩)).live
    (∀ b ∈ live, sizeofStructMem ≤ b.ptr ∧ b.ptr % 4 = 0 ∧ b.ptr + request b.asked ≤ memSize ∧
        (b.asked ≤ 65532 → b.asked ≤ request b.asked)) ∧
      live.Pairwise fun b c => b.ptr + request b.asked + sizeofStructMem ≤ c.ptr ∨
        c.ptr + request c.asked + sizeofStructMem ≤ b.ptr :=
  heap_blocks_apart _ someCalls (by decide +kernel)

def Clear (s : State) (room ptr : Nat) : Prop :=
  sizeofStructMem ≤ ptr ∧ ptr + room ≤ memSize ∧ ∀ b ∈ s.live,
    (s.heap.ram (b.ptr - sizeofStructMem)).next ≤ ptr - sizeofStructMem ∨
      ptr + room ≤ b.ptr - sizeofStructMem

theorem clear_iff (holds : Holds s.heap ts) (owned : Owned (usedTiles ts) s.live) {room ptr : Nat}
    (positive : 0 < room) : Clear s room ptr ↔ sizeofStructMem ≤ ptr ∧
      ∃ t ∈ ts, t.used = false ∧ t.start ≤ ptr - sizeofStructMem ∧ ptr + room ≤ t.stop := by
  constructor
  · rintro ⟨low, high, clear⟩
    refine ⟨low, holds.fills.free_place holds.separated (Nat.zero_le _) (by omega) high ?_⟩
    intro t member used
    obtain ⟨b, live, place⟩ := owned.held t (mem_usedTiles.mpr ⟨member, used⟩)
    have apart := clear b live
    rw [place, Nat.add_sub_cancel, (holds.headers.get member).1] at apart
    exact apart
  · rintro ⟨low, t, member, free, start, stop⟩
    have inside := holds.fills.inside member
    refine ⟨low, by omega, fun b live => ?_⟩
    obtain ⟨u, inUse, place, -⟩ := owned.tile b live
    obtain ⟨member', used⟩ := mem_usedTiles.mp inUse
    rw [place, Nat.add_sub_cancel, (holds.headers.get member').1]
    rcases holds.fills.apart member member' with rfl | before | behind
    · exact absurd (used.symm.trans free) (by decide)
    · exact Or.inr (by omega)
    · exact Or.inl (by omega)

/-- `mem_malloc` gives the lowest clear place, and `NULL` where there is none. -/
theorem malloc_first_fit (ram : Nat → StructMem) (calls : List Call)
    (held : Along step Held calls (afterInit ram)) (size : Nat) (positive : 0 < size) (ptr : Nat) :
    let s := run step calls (afterInit ram)
    (memMalloc s.heap size).1 = some ptr ↔ IsLeast {p | Clear s (request size) p} ptr := by
  obtain ⟨ts, holds, owned⟩ := run_inv ram held
  generalize run step calls (afterInit ram) = s at holds owned
  have more : 0 < request size := Nat.lt_of_lt_of_le (by decide) (request_spec size).2
  have place (p : Nat) : Clear s (request size) p ↔ _ := clear_iff holds owned more
  rcases memMalloc_spec holds size with ⟨result, unfits⟩ |
    ⟨front, t, back, stop, back', rfl, -, fit, unfit, found, -⟩
  · dsimp only
    rw [result]
    refine iff_of_false (by simp) fun least => ?_
    obtain ⟨low, t, member, free, start, stop⟩ := (place ptr).mp least.1
    exact unfits.elim (by omega) fun unfit => unfit t member ⟨free, by omega⟩
  · dsimp only
    rw [found]
    have first : IsLeast {p | Clear s (request size) p} (t.start + sizeofStructMem) := by
      refine ⟨(place _).mpr ⟨Nat.le_add_left _ _, t, by simp, fit.1, ?_, fit.2⟩, fun q clear => ?_⟩
      · rw [Nat.add_sub_cancel]
      · obtain ⟨low, u, member, free, start, stop⟩ := (place q).mp clear
        have fits : Fit (request size) u := ⟨free, by omega⟩
        obtain ⟨-, -, larger, right⟩ := holds.header
        rcases List.mem_append.mp member with before | behind
        · exact absurd fits (unfit u before)
        · rcases List.mem_cons.mp behind with rfl | later
          · omega
          · have inside := right.inside later
            omega
    constructor
    · rintro ⟨rfl⟩
      exact first
    · intro least
      rw [first.unique least]

theorem malloc_first_fit_some :
    let s := run step someCalls (afterInit fun _ => ⟨0, 0, false⟩)
    (memMalloc s.heap 30).1 = some 192 ↔ IsLeast {p | Clear s (request 30) p} 192 :=
  malloc_first_fit _ someCalls (by decide +kernel) 30 (by decide) 192

/-- Where all blocks were given back, the heap is one free block again. -/
theorem all_freed (ram : Nat → StructMem) (calls : List Call)
    (held : Along step Held calls (afterInit ram)) :
    let s := run step calls (afterInit ram)
    s.live = [] → s.heap.lfree = 0 ∧ s.heap.ram 0 = ⟨memSize, 0, false⟩ := by
  obtain ⟨ts, holds, owned⟩ := run_inv ram held
  generalize run step calls (afterInit ram) = s at holds owned
  dsimp only
  intro empty
  have free : ∀ t ∈ ts, t.used = false := by
    intro t member
    by_contra used
    obtain ⟨b, live, -⟩ := owned.held t (mem_usedTiles.mpr ⟨member, by simpa using used⟩)
    rw [empty] at live
    cases live
  cases ts with
  | nil => exact absurd holds.fills (show ¬ 0 = memSize by decide)
  | cons t rest =>
    obtain ⟨start, positive, right⟩ := holds.fills
    cases rest with
    | nil =>
      have lower := holds.lowest.1 t (by simp) (free t (by simp))
      have header := holds.headers.1
      rw [start, right, free t (by simp)] at header
      exact ⟨by omega, header⟩
    | cons u rest =>
      have side := (List.isChain_cons_cons.mp holds.separated).1
      rw [free t (by simp), free u (by simp)] at side
      simp at side

theorem all_freed_two :
    let s := run step [.malloc 20, .malloc 100, .free 8, .free 36]
      (afterInit fun _ => ⟨0, 0, false⟩)
    s.heap.lfree = 0 ∧ s.heap.ram 0 = ⟨memSize, 0, false⟩ :=
  all_freed _ [.malloc 20, .malloc 100, .free 8, .free 36] (by decide +kernel) rfl

end BoxFirmware.MemBlocks
