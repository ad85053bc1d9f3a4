import BoxFirmware.RunMap
import Mathlib.Logic.Function.Basic

/-! The block allocator of `malloc.c`. Each of the three pools has a map with one
`u16` entry per 32-byte block; `mymem_malloc` searches it from the top for free
blocks and writes the run's length into each of them, and `mymem_free` clears as
many entries as the first one says. Pointers are 32-bit addresses and `0` is
`NULL`; the linker's choice of the pools' addresses is a parameter. The bytes
of the pools themselves are not part of the state. -/
namespace BoxFirmware.Malloc
open RunMap

inductive Bank
  | sramin
  | sramex
  | sramccm
deriving DecidableEq, Repr

def memblksize : Bank → Nat
  | .sramin => 32
  | .sramex => 32
  | .sramccm => 32

def memsize : Bank → Nat
  | .sramin => 80 * 1024
  | .sramex => 200 * 1024
  | .sramccm => 50 * 1024

def memtblsize (memx : Bank) : Nat := memsize memx / memblksize memx

/-- Where the pools lie: none at address 0, none wrapping the address space. -/
structure Layout where
  membase : Bank → Nat
  pos : ∀ memx, 0 < membase memx
  fits : ∀ memx, membase memx + memsize memx ≤ 2^32

structure Pool where
  memmap : Nat → Nat
  memrdy : Bool

def mymemInit (memx : Bank) (p : Pool) : Pool :=
  ⟨fill p.memmap 0 (memtblsize memx) 0, true⟩

/-- The downward loop over `offset`, entered with `offset + 1`. -/
def searchRun (memmap : Nat → Nat) (nmemb : Nat) : (next : Nat) → (cmemb : Nat) → Option Nat
  | 0, _ => none
  | offset + 1, cmemb =>
    let cmemb := if memmap offset = 0 then (cmemb + 1) % 2^16 else 0
    if cmemb = nmemb then some offset else searchRun memmap nmemb offset cmemb

def blocksFor (memx : Bank) (size : Nat) : Nat :=
  let nmemb := size / memblksize memx % 2^16
  if size % memblksize memx ≠ 0 then (nmemb + 1) % 2^16 else nmemb

def mymemMalloc (memx : Bank) (p : Pool) (size : Nat) : Nat × Pool :=
  let p := if p.memrdy then p else mymemInit memx p
  if size = 0 then (0xFFFFFFFF, p)
  else
    let nmemb := blocksFor memx size
    match searchRun p.memmap nmemb (memtblsize memx) 0 with
    | some offset =>
      (offset * memblksize memx, { p with memmap := fill p.memmap offset nmemb nmemb })
    | none => (0xFFFFFFFF, p)

def mymemFree (memx : Bank) (p : Pool) (offset : Nat) : Nat × Pool :=
  if !p.memrdy then (1, mymemInit memx p)
  else if offset < memsize memx then
    let index := offset / memblksize memx
    let nmemb := p.memmap index
    (0, { p with memmap := fill p.memmap index nmemb 0 })
  else (2, p)

def myfree (L : Layout) (memx : Bank) (p : Pool) (ptr : Nat) : Pool :=
  if ptr = 0 then p else (mymemFree memx p ((ptr + 2^32 - L.membase memx) % 2^32)).2

def mymalloc (L : Layout) (memx : Bank) (p : Pool) (size : Nat) : Nat × Pool :=
  let r := mymemMalloc memx p size
  if r.1 = 0xFFFFFFFF then (0, r.2) else ((L.membase memx + r.1) % 2^32, r.2)

theorem memtblsize_mul (memx : Bank) : memtblsize memx * 32 = memsize memx := by
  cases memx <;> rfl

theorem memblksize_eq (memx : Bank) : memblksize memx = 32 := by
  cases memx <;> rfl

theorem memsize_le (memx : Bank) : memsize memx ≤ 204800 := by
  cases memx <;> decide

theorem blocksFor_word (memx : Bank) {size : Nat} (word : (size + 31) / 32 < 2^16) :
    blocksFor memx size = (size + 31) / 32 := by
  simp only [blocksFor, memblksize_eq]
  split_ifs <;> omega

theorem blocksFor_eq (memx : Bank) {size : Nat} (small : size ≤ memsize memx) :
    blocksFor memx size = (size + 31) / 32 := by
  have bound := memsize_le memx
  exact blocksFor_word memx (by omega)

/-- The search keeps `cmemb` free entries just above `next`; what it returns is a
stretch of `nmemb` free entries. -/
theorem searchRun_some (memmap : Nat → Nat) (nmemb next cmemb offset : Nat)
    (short : cmemb < nmemb) (word : nmemb < 2^16)
    (free : ∀ i, next ≤ i → i < next + cmemb → memmap i = 0)
    (found : searchRun memmap nmemb next cmemb = some offset) :
    offset + nmemb ≤ next + cmemb ∧ ∀ i, offset ≤ i → i < offset + nmemb → memmap i = 0 := by
  induction next generalizing cmemb with
  | zero => simp [searchRun] at found
  | succ next ih =>
    simp only [searchRun] at found
    by_cases blank : memmap next = 0
    · have count : (cmemb + 1) % 2^16 = cmemb + 1 := by omega
      have longer : ∀ i, next ≤ i → i < next + (cmemb + 1) → memmap i = 0 := by
        intro i lower upper
        rcases Nat.eq_or_lt_of_le lower with rfl | above
        · exact blank
        · exact free i (by omega) (by omega)
      simp only [blank, if_true, count] at found
      split_ifs at found with enough
      · obtain rfl := Option.some.inj found
        exact ⟨by omega, fun i lower upper => longer i lower (by omega)⟩
      · obtain ⟨bound, zero⟩ := ih (cmemb + 1) (by omega) longer found
        exact ⟨by omega, zero⟩
    · have pos : ¬ 0 = nmemb := by omega
      simp only [blank, if_false, pos] at found
      obtain ⟨bound, zero⟩ := ih 0 (by omega) (fun i _ _ => by omega) found
      exact ⟨by omega, zero⟩

theorem mymalloc_cases (L : Layout) (memx : Bank) (p : Pool) (size : Nat)
    (ready : p.memrdy = true) (small : size ≤ memsize memx) :
    mymalloc L memx p size = (0, p) ∨
    ∃ offset, 0 < size ∧ offset + (size + 31) / 32 ≤ memtblsize memx ∧
      (∀ i, offset ≤ i → i < offset + (size + 31) / 32 → p.memmap i = 0) ∧
      mymalloc L memx p size = (L.membase memx + 32 * offset,
        { p with memmap := fill p.memmap offset ((size + 31) / 32) ((size + 31) / 32) }) := by
  have table := memtblsize_mul memx
  have bound := memsize_le memx
  have base := L.fits memx
  simp only [mymalloc, mymemMalloc, ready, if_true, blocksFor_eq memx small, memblksize_eq]
  by_cases empty : size = 0
  · left
    simp only [empty, if_true]
  · simp only [empty, if_false]
    cases found : searchRun p.memmap ((size + 31) / 32) (memtblsize memx) 0 with
    | none => left; simp only [if_true]
    | some offset =>
      right
      obtain ⟨fit, zero⟩ := searchRun_some p.memmap _ _ 0 offset (by omega) (by omega)
        (fun i _ _ => by omega) found
      have valid : ¬ offset * 32 = 0xFFFFFFFF := by omega
      have address : (L.membase memx + offset * 32) % 2^32 = L.membase memx + 32 * offset := by
        omega
      exact ⟨offset, by omega, by omega, zero, by simp only [valid, if_false, address]⟩

theorem myfree_block (L : Layout) (memx : Bank) (p : Pool) (offset : Nat)
    (ready : p.memrdy = true) (inside : offset < memtblsize memx) :
    myfree L memx p (L.membase memx + 32 * offset) =
      { p with memmap := fill p.memmap offset (p.memmap offset) 0 } := by
  have table := memtblsize_mul memx
  have bound := memsize_le memx
  have base := L.fits memx
  have pos := L.pos memx
  have null : ¬ L.membase memx + 32 * offset = 0 := by omega
  have back : (L.membase memx + 32 * offset + 2^32 - L.membase memx) % 2^32 = 32 * offset := by
    omega
  have index : 32 * offset / 32 = offset := by omega
  have valid : 32 * offset < memsize memx := by omega
  simp only [myfree, null, if_false, back, mymemFree, ready, Bool.not_true, Bool.false_eq_true,
    valid, if_true, memblksize_eq, index]

theorem myfree_outside (L : Layout) (memx : Bank) (p : Pool) (ptr : Nat)
    (ready : p.memrdy = true) (word : ptr < 2^32)
    (out : ptr < L.membase memx ∨ L.membase memx + memsize memx ≤ ptr) :
    myfree L memx p ptr = p := by
  have bound := memsize_le memx
  have base := L.fits memx
  have far : ¬ (ptr + 2^32 - L.membase memx) % 2^32 < memsize memx := by omega
  simp only [myfree, mymemFree, ready, Bool.not_true, Bool.false_eq_true, if_false, far]
  split_ifs <;> rfl

theorem myfree_mymalloc (L : Layout) (memx : Bank) (p : Pool) (size : Nat)
    (ready : p.memrdy = true) (small : size ≤ memsize memx) :
    myfree L memx (mymalloc L memx p size).2 (mymalloc L memx p size).1 = p := by
  rcases mymalloc_cases L memx p size ready small with same | ⟨offset, pos, fit, zero, eq⟩
  · simp [same, myfree]
  · rw [eq]
    dsimp only
    rw [myfree_block L memx _ offset (by exact ready) (by omega)]
    simp only [fill_inside _ _ _ _ (Nat.le_refl offset) (show offset < offset + (size + 31) / 32
      by omega), fill_fill_zero _ _ _ _ zero]

/-- A result of `mymalloc` that has not been freed, with the size asked for. -/
structure Alloc where
  ptr : Nat
  size : Nat

def Alloc.run (L : Layout) (memx : Bank) (a : Alloc) : Run :=
  ⟨(a.ptr - L.membase memx) / 32, (a.size + 31) / 32⟩

/-- Every sequence of calls on the three pools that asks for no more than a pool
holds and frees only `NULL` or a live result, with the live results so far. -/
inductive Reach (L : Layout) : (Bank → Pool) → (Bank → List Alloc) → Prop
  | start (dev : Bank → Pool) (zero : ∀ memx i, (dev memx).memmap i = 0) :
      Reach L dev (fun _ => [])
  | malloc {dev live} (memx : Bank) (size : Nat) (small : size ≤ memsize memx)
      (h : Reach L dev live) :
      Reach L (Function.update dev memx (mymalloc L memx (dev memx) size).2)
        (Function.update live memx (if (mymalloc L memx (dev memx) size).1 = 0 then live memx
          else ⟨(mymalloc L memx (dev memx) size).1, size⟩ :: live memx))
  | free {dev live} (memx : Bank) (ptr : Nat) (ok : ptr = 0 ∨ ∃ a ∈ live memx, a.ptr = ptr)
      (h : Reach L dev live) :
      Reach L (Function.update dev memx (myfree L memx (dev memx) ptr))
        (Function.update live memx ((live memx).filter (·.ptr ≠ ptr)))

structure Owned (L : Layout) (memx : Bank) (p : Pool) (live : List Alloc) : Prop where
  idle : p.memrdy = false → live = []
  tiles : Tiles (memtblsize memx) p.memmap (live.map (Alloc.run L memx))
  placed : ∀ a ∈ live, a.ptr = L.membase memx + 32 * (a.run L memx).start

theorem Owned.ready {L : Layout} {memx : Bank} {p : Pool} {live : List Alloc}
    (h : Owned L memx p live) :
    Owned L memx (if p.memrdy then p else mymemInit memx p) live ∧
      (if p.memrdy then p else mymemInit memx p).memrdy = true := by
  cases rdy : p.memrdy with
  | true => simpa [rdy] using h
  | false =>
    have none := h.idle rdy
    subst none
    refine ⟨⟨by simp [mymemInit], Tiles.nil _ _ ?_, by simp⟩, by simp [mymemInit]⟩
    intro i hi
    exact fill_inside _ _ _ _ (Nat.zero_le i) (by omega)

theorem mymalloc_ready (L : Layout) (memx : Bank) (p : Pool) (size : Nat) :
    mymalloc L memx p size =
      mymalloc L memx (if p.memrdy then p else mymemInit memx p) size := by
  cases rdy : p.memrdy <;> simp [mymalloc, mymemMalloc, rdy, mymemInit]

theorem Owned.malloc {L : Layout} {memx : Bank} {p : Pool} {live : List Alloc} (size : Nat)
    (small : size ≤ memsize memx) (h : Owned L memx p live) :
    Owned L memx (mymalloc L memx p size).2 (if (mymalloc L memx p size).1 = 0 then live
      else ⟨(mymalloc L memx p size).1, size⟩ :: live) := by
  obtain ⟨owned, ready⟩ := h.ready
  rw [mymalloc_ready]
  generalize (if p.memrdy then p else mymemInit memx p) = q at owned ready ⊢
  rcases mymalloc_cases L memx q size ready small with same | ⟨offset, pos, fit, zero, eq⟩
  · simpa [same] using owned
  · have null : ¬ L.membase memx + 32 * offset = 0 := by
      have := L.pos memx
      omega
    have run : (Alloc.run L memx ⟨L.membase memx + 32 * offset, size⟩) =
        ⟨offset, (size + 31) / 32⟩ := by
      simp only [Alloc.run, Nat.add_sub_cancel_left, Nat.mul_div_cancel_left offset
        (show 0 < 32 by decide)]
    simp only [eq, null, if_false]
    refine ⟨by simp [ready], ?_, ?_⟩
    · rw [List.map_cons, run]
      exact owned.tiles.insert (by omega) fit zero
    · intro a ha
      rcases List.mem_cons.mp ha with rfl | ha
      · rw [run]
      · exact owned.placed a ha

theorem Owned.apart {L : Layout} {memx : Bank} {p : Pool} {before after : List Alloc}
    {a : Alloc} (h : Owned L memx p (before ++ a :: after)) :
    ∀ b ∈ before ++ after, Run.Apart (b.run L memx) (a.run L memx) := by
  intro b hb
  have pair := h.tiles.apart
  rw [List.map_append, List.map_cons] at pair
  obtain ⟨-, right, cross⟩ := List.pairwise_append.mp pair
  rcases List.mem_append.mp hb with hb | ha
  · exact cross _ (List.mem_map_of_mem hb) _ (by simp)
  · exact ((List.pairwise_cons.mp right).1 _ (List.mem_map_of_mem ha)).symm

theorem Owned.ptr_ne {L : Layout} {memx : Bank} {p : Pool} {before after : List Alloc}
    {a : Alloc} (h : Owned L memx p (before ++ a :: after)) :
    ∀ b ∈ before ++ after, b.ptr ≠ a.ptr := by
  intro b hb same
  have mem : b ∈ before ++ a :: after := by
    simp only [List.mem_append, List.mem_cons] at hb ⊢
    tauto
  have apart := h.apart b hb
  have lenB := (h.tiles.inside _ (List.mem_map_of_mem mem)).1
  have lenA := (h.tiles.inside (a.run L memx) (by simp)).1
  have startB := h.placed b mem
  have startA := h.placed a (by simp)
  simp only [Run.Apart] at apart
  omega

theorem Owned.apart_of_ne {L : Layout} {memx : Bank} {p : Pool} {live : List Alloc} {a b : Alloc}
    (h : Owned L memx p live) (ha : a ∈ live) (hb : b ∈ live) (other : b.ptr ≠ a.ptr) :
    Run.Apart (b.run L memx) (a.run L memx) := by
  obtain ⟨before, after, rfl⟩ := List.append_of_mem ha
  refine h.apart b ?_
  simp only [List.mem_append, List.mem_cons] at hb ⊢
  rcases hb with front | rfl | back
  · exact .inl front
  · exact absurd rfl other
  · exact .inr back

theorem Owned.filter_eq {L : Layout} {memx : Bank} {p : Pool} {before after : List Alloc}
    {a : Alloc} (h : Owned L memx p (before ++ a :: after)) :
    (before ++ a :: after).filter (·.ptr ≠ a.ptr) = before ++ after := by
  have other := h.ptr_ne
  simp only [List.mem_append] at other
  rw [List.filter_append, List.filter_cons]
  simp only [ne_eq, not_true_eq_false, decide_false, Bool.false_eq_true, if_false]
  rw [List.filter_eq_self.mpr (fun b hb => by simpa using other b (Or.inl hb)),
    List.filter_eq_self.mpr (fun b hb => by simpa using other b (Or.inr hb))]

theorem Owned.memrdy {L : Layout} {memx : Bank} {p : Pool} {live : List Alloc} {a : Alloc}
    (h : Owned L memx p live) (ha : a ∈ live) : p.memrdy = true := by
  cases rdy : p.memrdy with
  | true => rfl
  | false => simp [h.idle rdy] at ha

theorem Owned.free_map {L : Layout} {memx : Bank} {p : Pool} {live : List Alloc}
    (h : Owned L memx p live) {a : Alloc} (ha : a ∈ live) :
    myfree L memx p a.ptr =
      { p with memmap := fill p.memmap (a.run L memx).start (a.run L memx).len 0 } := by
  have ready := h.memrdy ha
  obtain ⟨pos, fit⟩ := h.tiles.inside _ (List.mem_map_of_mem ha)
  have entry := h.tiles.filled _ (List.mem_map_of_mem ha) (a.run L memx).start
    (Nat.le_refl _) (by omega)
  rw [h.placed a ha, myfree_block L memx p _ ready (by omega), entry]

theorem Owned.free {L : Layout} {memx : Bank} {p : Pool} {live : List Alloc} (ptr : Nat)
    (ok : ptr = 0 ∨ ∃ a ∈ live, a.ptr = ptr) (h : Owned L memx p live) :
    Owned L memx (myfree L memx p ptr) (live.filter (·.ptr ≠ ptr)) := by
  rcases ok with rfl | ⟨a, ha, rfl⟩
  · have keep : live.filter (·.ptr ≠ 0) = live := by
      refine List.filter_eq_self.mpr (fun a ha => ?_)
      have place := h.placed a ha
      have := L.pos memx
      simp only [ne_eq, decide_not, Bool.not_eq_true', decide_eq_false_iff_not]
      omega
    rw [keep]
    simpa [myfree] using h
  · rw [h.free_map ha]
    obtain ⟨before, after, rfl⟩ := List.append_of_mem ha
    rw [h.filter_eq]
    have sub : ∀ b ∈ before ++ after, b ∈ before ++ a :: after := by
      intro b hb
      simp only [List.mem_append, List.mem_cons] at hb ⊢
      tauto
    refine ⟨?_, ?_, fun b hb => h.placed b (sub b hb)⟩
    · intro rdy
      simpa using h.idle rdy
    · have tiles := h.tiles
      rw [List.map_append, List.map_cons] at tiles
      rw [List.map_append]
      exact tiles.remove

theorem Reach.owned {L : Layout} {dev : Bank → Pool} {live : Bank → List Alloc}
    (h : Reach L dev live) (memx : Bank) : Owned L memx (dev memx) (live memx) := by
  induction h generalizing memx with
  | start dev zero => exact ⟨fun _ => rfl, Tiles.nil _ _ (fun i _ => zero memx i), by simp⟩
  | malloc b size small _ ih =>
    by_cases same : memx = b
    · subst same
      simpa only [Function.update_self] using (ih memx).malloc size small
    · simpa only [Function.update_of_ne same] using ih memx
  | free b ptr ok _ ih =>
    by_cases same : memx = b
    · subst same
      simpa only [Function.update_self] using (ih memx).free ptr ok
    · simpa only [Function.update_of_ne same] using ih memx

/-- The map of every pool is, after every sequence of calls, the disjoint union of
one run per live allocation; each allocation owns its bytes inside the pool, and
a free clears its own run only. -/
theorem mymalloc_myfree_runs (L : Layout) (dev : Bank → Pool) (live : Bank → List Alloc)
    (h : Reach L dev live) (memx : Bank) :
    Tiles (memtblsize memx) (dev memx).memmap ((live memx).map (Alloc.run L memx)) ∧
    (∀ a ∈ live memx, a.ptr = L.membase memx + 32 * (a.run L memx).start ∧
      a.size ≤ 32 * (a.run L memx).len ∧
      a.ptr + 32 * (a.run L memx).len ≤ L.membase memx + memsize memx) ∧
    (live memx).Pairwise (fun a b => a.ptr + 32 * (a.run L memx).len ≤ b.ptr ∨
      b.ptr + 32 * (b.run L memx).len ≤ a.ptr) ∧
    ∀ a ∈ live memx, (myfree L memx (dev memx) a.ptr).memmap =
      fill (dev memx).memmap (a.run L memx).start (a.run L memx).len 0 := by
  have owned := h.owned memx
  have table := memtblsize_mul memx
  refine ⟨owned.tiles, ?_, ?_, ?_⟩
  · intro a ha
    have place := owned.placed a ha
    have fit := (owned.tiles.inside _ (List.mem_map_of_mem ha)).2
    have enough : a.size ≤ 32 * (a.run L memx).len := by
      simp only [Alloc.run]
      omega
    exact ⟨place, enough, by omega⟩
  · have apart := List.pairwise_map.mp owned.tiles.apart
    refine apart.imp_of_mem ?_
    intro a b ha hb away
    have placeA := owned.placed a ha
    have placeB := owned.placed b hb
    simp only [Run.Apart] at away
    omega
  · intro a ha
    rw [owned.free_map ha]

/-- A memory map: the internal pool at the start of SRAM, the others where
`malloc.c` places them. -/
def mapLayout : Layout where
  membase
    | .sramin => 0x20000000
    | .sramex => 0x68000000
    | .sramccm => 0x10000000
  pos memx := by cases memx <;> decide
  fits memx := by cases memx <;> decide

/-- Of three blocks the middle one is freed, and another goes into its place. -/
theorem mymalloc_myfree_runs_three :
    ∃ dev live, Reach mapLayout dev live ∧ (live .sramin).map Alloc.size = [500, 40, 100] ∧
      Tiles (memtblsize .sramin) (dev .sramin).memmap
        ((live .sramin).map (Alloc.run mapLayout .sramin)) ∧
      (live .sramin).Pairwise (fun a b => a.ptr + 32 * (a.run mapLayout .sramin).len ≤ b.ptr ∨
        b.ptr + 32 * (b.run mapLayout .sramin).len ≤ a.ptr) := by
  have one := Reach.malloc .sramin 100 (by decide)
    (Reach.start (L := mapLayout) (fun _ => ⟨fun _ => 0, true⟩) (fun _ _ => rfl))
  have two := Reach.malloc .sramin 1000 (by decide) one
  have three := Reach.malloc .sramin 40 (by decide) two
  have freed := Reach.free .sramin 536951680 (by decide +kernel) three
  have reach := Reach.malloc .sramin 500 (by decide) freed
  obtain ⟨tiles, -, apart, -⟩ := mymalloc_myfree_runs _ _ _ reach .sramin
  exact ⟨_, _, reach, by decide +kernel, tiles, apart⟩

end BoxFirmware.Malloc
