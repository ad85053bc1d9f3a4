import BoxFirmware.GuardedRun
import BoxFirmware.Tiling
import Mathlib.Logic.Function.Basic

/-! The heap of `mem.c`, which the packet buffers come from. A pointer is its offset into
`ram`; the headers are kept by their offsets, and the bytes of the blocks are not part of the
state. Each call holds `mem_mutex`, so the calls of the tasks follow one another. -/
namespace BoxFirmware.MemHeap
open Tiling

abbrev memSize : Nat := 16000

abbrev sizeofStructMem : Nat := 8

abbrev minSize : Nat := 12

/-- `LWIP_MEM_ALIGN_SIZE`, stored in a `mem_size_t` of 16 bits. -/
def memAlignSize (size : Nat) : Nat := (size + 3) / 4 * 4 % 65536

structure StructMem where
  next : Nat
  prev : Nat
  used : Bool

structure Heap where
  ram : Nat → StructMem
  lfree : Nat

def Heap.put (h : Heap) (place : Nat) (mem : StructMem) : Heap :=
  { h with ram := Function.update h.ram place mem }

def Heap.setNext (h : Heap) (place next : Nat) : Heap := h.put place { h.ram place with next }

def Heap.setPrev (h : Heap) (place prev : Nat) : Heap := h.put place { h.ram place with prev }

def Heap.setUsed (h : Heap) (place : Nat) (used : Bool) : Heap :=
  h.put place { h.ram place with used }

/-- The header of `ram_end` is behind the tiles. -/
def memInit (ram : Nat → StructMem) : Heap :=
  let h : Heap := ⟨ram, 0⟩
  (h.put 0 ⟨memSize, 0, false⟩).put memSize ⟨memSize, memSize, true⟩

/-- The first half of `plug_holes`. -/
def plugForward (h : Heap) (mem : Nat) : Heap :=
  let nmem := (h.ram mem).next
  if mem ≠ nmem ∧ (h.ram nmem).used = false ∧ nmem ≠ memSize then
    let h := if h.lfree = nmem then { h with lfree := mem } else h
    let next := (h.ram nmem).next
    (h.setNext mem next).setPrev next mem
  else h

def plugBackward (h : Heap) (mem : Nat) : Heap :=
  let pmem := (h.ram mem).prev
  if pmem ≠ mem ∧ (h.ram pmem).used = false then
    let h := if h.lfree = mem then { h with lfree := pmem } else h
    let next := (h.ram mem).next
    (h.setNext pmem next).setPrev next pmem
  else h

def plugHoles (h : Heap) (mem : Nat) : Heap := plugBackward (plugForward h mem) mem

def memFree (h : Heap) : (rmem : Option Nat) → Heap
  | none => h
  | some rmem =>
    if rmem ≥ memSize then h
    else
      let mem := rmem - sizeofStructMem
      let h := h.setUsed mem false
      let h := if mem < h.lfree then { h with lfree := mem } else h
      plugHoles h mem

def linkBack (h : Heap) (next place : Nat) : Heap :=
  if next ≠ memSize then h.setPrev next place else h

/-- `newsize` as it is worked with. -/
def request (size : Nat) : Nat := max minSize (memAlignSize size)

def memTrim (h : Heap) (rmem newsize : Nat) : Option Nat × Heap :=
  let newsize := request newsize
  if newsize > memSize then (none, h)
  else if rmem ≥ memSize then (some rmem, h)
  else
    let mem := rmem - sizeofStructMem
    let size := (h.ram mem).next - mem - sizeofStructMem
    if newsize > size then (none, h)
    else if newsize = size then (some rmem, h)
    else
      let mem2 := (h.ram mem).next
      let ptr2 := mem + sizeofStructMem + newsize
      if (h.ram mem2).used = false then
        let next := (h.ram mem2).next
        let h := if h.lfree = mem2 then { h with lfree := ptr2 } else h
        let h := (h.put ptr2 ⟨next, mem, false⟩).setNext mem ptr2
        (some rmem, linkBack h next ptr2)
      else if newsize + sizeofStructMem + minSize ≤ size then
        let h := if ptr2 < h.lfree then { h with lfree := ptr2 } else h
        let h := (h.put ptr2 ⟨mem2, mem, false⟩).setNext mem ptr2
        (some rmem, linkBack h mem2 ptr2)
      else (some rmem, h)

def Heap.room (h : Heap) (ptr : Nat) : Nat := (h.ram ptr).next - (ptr + sizeofStructMem)

/-- The `for` loop of `mem_malloc`; the places grow, so `memSize` rounds are enough. -/
def search (h : Heap) (size : Nat) : (fuel ptr : Nat) → Option Nat
  | 0, _ => none
  | fuel + 1, ptr =>
    if ptr < memSize - size then
      if (h.ram ptr).used = false ∧ h.room ptr ≥ size then some ptr
      else search h size fuel (h.ram ptr).next
    else none

/-- The `while` loop that looks for the next free block. -/
def nextFree (h : Heap) : (fuel cur : Nat) → Nat
  | 0, cur => cur
  | fuel + 1, cur =>
    if (h.ram cur).used = true ∧ cur ≠ memSize then nextFree h fuel (h.ram cur).next else cur

def take (h : Heap) (size mem : Nat) : Heap :=
  let h :=
    if h.room mem ≥ size + sizeofStructMem + minSize then
      let ptr2 := mem + sizeofStructMem + size
      let next := (h.ram mem).next
      let h := ((h.put ptr2 ⟨next, mem, false⟩).setNext mem ptr2).setUsed mem true
      linkBack h next ptr2
    else h.setUsed mem true
  if mem = h.lfree then { h with lfree := nextFree h memSize h.lfree } else h

def memMalloc (h : Heap) (size : Nat) : Option Nat × Heap :=
  if size = 0 then (none, h)
  else
    let size := request size
    if size > memSize then (none, h)
    else
      match search h size memSize h.lfree with
      | none => (none, h)
      | some mem => (some (mem + sizeofStructMem), take h size mem)

section Headers

def lastStart : (before : Nat) → List Tile → Nat
  | before, [] => before
  | _, t :: ts => lastStart t.start ts

def Headers (ram : Nat → StructMem) : (before : Nat) → List Tile → Prop
  | _, [] => True
  | before, t :: ts => ram t.start = ⟨t.stop, before, t.used⟩ ∧ Headers ram t.start ts

variable {ram ram' : Nat → StructMem} {a b c before : Nat} {t u : Tile}
  {ts front mid mid' back : List Tile}

@[simp] theorem lastStart_concat (before : Nat) (ts : List Tile) (t : Tile) :
    lastStart before (ts ++ [t]) = t.start := by
  induction ts generalizing before with
  | nil => rfl
  | cons u ts ih => exact ih u.start

theorem headers_append : Headers ram before (front ++ back) ↔
    Headers ram before front ∧ Headers ram (lastStart before front) back := by
  induction front generalizing before with
  | nil => simp [Headers, lastStart]
  | cons t front ih => rw [List.cons_append, Headers, ih, Headers, lastStart, and_assoc]

theorem Headers.congr (headers : Headers ram before ts) (same : ∀ t ∈ ts, ram' t.start = ram t.start) :
    Headers ram' before ts := by
  induction ts generalizing before with
  | nil => trivial
  | cons t ts ih =>
    exact ⟨(same t List.mem_cons_self).trans headers.1,
      ih headers.2 (fun u later => same u (List.mem_cons_of_mem t later))⟩

theorem Headers.get (headers : Headers ram before ts) (member : t ∈ ts) :
    (ram t.start).next = t.stop ∧ (ram t.start).used = t.used := by
  induction ts generalizing before with
  | nil => cases member
  | cons u ts ih =>
    rcases List.mem_cons.mp member with rfl | later
    · rw [headers.1]
      exact ⟨rfl, rfl⟩
    · exact ih headers.2 later

structure Tiled (h : Heap) (ts : List Tile) : Prop where
  fills : Fills 0 ts memSize
  headers : Headers h.ram 0 ts
  last : (h.ram memSize).used = true

theorem Tiled.replace {h h' : Heap} (tiled : Tiled h (front ++ (mid ++ back)))
    (left : Fills 0 front a) (old : Fills a mid c) (new : Fills a mid' c)
    (headers : Headers h'.ram (lastStart 0 front) mid')
    (outside : ∀ x, x < a ∨ c < x → h'.ram x = h.ram x)
    (next : (h'.ram c).next = (h.ram c).next) (used : (h'.ram c).used = (h.ram c).used)
    (link : c ≠ memSize → (h'.ram c).prev = lastStart (lastStart 0 front) mid') :
    Tiled h' (front ++ (mid' ++ back)) := by
  obtain ⟨b, left', rest⟩ := fills_append.mp tiled.fills
  obtain ⟨d, middle, right⟩ := fills_append.mp rest
  obtain rfl : a = b := left.end_unique left'
  obtain rfl : c = d := old.end_unique middle
  obtain ⟨linked, linked'⟩ := headers_append.mp tiled.headers
  obtain ⟨-, behind⟩ := headers_append.mp linked'
  have bound := right.le
  refine ⟨fills_append.mpr ⟨a, left, fills_append.mpr ⟨c, new, right⟩⟩, ?_, ?_⟩
  · refine headers_append.mpr ⟨linked.congr fun t member => outside _ ?_,
      headers_append.mpr ⟨headers, ?_⟩⟩
    · have here := left.inside member
      omega
    · cases back with
      | nil => trivial
      | cons t back =>
        obtain ⟨start, positive, right'⟩ := right
        subst start
        have prev := link (by have finish := right'.le; omega)
        refine ⟨?_, behind.2.congr fun u member => outside _ ?_⟩
        · have first := behind.1
          rw [first] at next used
          generalize h'.ram t.start = header at next used prev
          obtain ⟨n, p, f⟩ := header
          dsimp only at next used prev
          rw [next, used, prev]
        · have here := right'.inside member
          omega
  · by_cases finish : c = memSize
    · rw [← finish, used, finish]
      exact tiled.last
    · rw [outside memSize (Or.inr (by omega))]
      exact tiled.last

theorem Heap.put_ram (h : Heap) (place x : Nat) (mem : StructMem) :
    (h.put place mem).ram x = if x = place then mem else h.ram x := Function.update_apply _ _ _ _

@[simp] theorem linkBack_lfree (h : Heap) (next place : Nat) :
    (linkBack h next place).lfree = h.lfree := by
  unfold linkBack
  split <;> rfl

@[simp] theorem Heap.put_lfree (h : Heap) (place : Nat) (mem : StructMem) :
    (h.put place mem).lfree = h.lfree := rfl

theorem Tiled.header {h : Heap} (tiled : Tiled h (front ++ t :: back)) :
    h.ram t.start = ⟨t.stop, lastStart 0 front, t.used⟩ ∧ Fills 0 front t.start ∧
      t.start < t.stop ∧ Fills t.stop back memSize := by
  obtain ⟨a, left, start, positive, right⟩ := fills_append.mp tiled.fills
  subst start
  exact ⟨(headers_append.mp tiled.headers).2.1, left, positive, right⟩

variable {h : Heap}

theorem Tiled.join (tiled : Tiled h (front ++ t :: u :: back)) :
    Tiled ((h.setNext t.start u.stop).setPrev u.stop t.start)
      (front ++ ⟨t.start, u.stop, t.used⟩ :: back) := by
  obtain ⟨header, left, positive, start, positive', right⟩ := tiled.header
  have apart : t.start ≠ u.stop := by omega
  have parts : Tiled h (front ++ ([t, u] ++ back)) := tiled
  have joined : Fills t.start [⟨t.start, u.stop, t.used⟩] u.stop :=
    ⟨rfl, show t.start < u.stop by omega, rfl⟩
  refine parts.replace left ⟨rfl, positive, start, positive', rfl⟩ joined ⟨?_, trivial⟩
    (fun x outside => ?_) ?_ ?_ (fun _ => ?_)
  · simp only [Heap.setPrev, Heap.setNext, Heap.put_ram]
    rw [if_neg apart, if_pos trivial, header]
  · simp only [Heap.setPrev, Heap.setNext, Heap.put_ram]
    rw [if_neg (by omega), if_neg (by omega)]
  · simp only [Heap.setPrev, Heap.setNext, Heap.put_ram]
    rw [if_pos trivial, if_neg apart.symm]
  · simp only [Heap.setPrev, Heap.setNext, Heap.put_ram]
    rw [if_pos trivial, if_neg apart.symm]
  · simp only [Heap.setPrev, Heap.setNext, Heap.put_ram]
    rw [if_pos trivial]
    rfl

theorem Tiled.mark (tiled : Tiled h (front ++ t :: back)) (used : Bool) :
    Tiled (h.setUsed t.start used) (front ++ ⟨t.start, t.stop, used⟩ :: back) := by
  obtain ⟨header, left, positive, right⟩ := tiled.header
  have parts : Tiled h (front ++ ([t] ++ back)) := tiled
  have marked : Fills t.start [⟨t.start, t.stop, used⟩] t.stop := ⟨rfl, positive, rfl⟩
  have bound := right.le
  have behind : t.stop ≠ memSize → (h.ram t.stop).prev = t.start := by
    intro more
    cases back with
    | nil => exact absurd right more
    | cons u back =>
      rw [← right.1, (headers_append.mp tiled.headers).2.2.1]
  refine parts.replace left ⟨rfl, positive, rfl⟩ marked ⟨?_, trivial⟩ (fun x outside => ?_) ?_ ?_
    (fun more => ?_)
  · simp only [Heap.setUsed, Heap.put_ram]
    rw [if_pos trivial, header]
  · simp only [Heap.setUsed, Heap.put_ram]
    rw [if_neg (by omega)]
  all_goals
    simp only [Heap.setUsed, Heap.put_ram]
    rw [if_neg (by omega)]
  exact behind more

theorem Tiled.cut (rest : List Tile) (tiled : Tiled h (front ++ (t :: rest ++ back)))
    (old : Fills t.start (t :: rest) c) {place : Nat} (above : t.start < place) (below : place < c) :
    Tiled (linkBack ((h.put place ⟨c, t.start, false⟩).setNext t.start place) c place)
      (front ++ ⟨t.start, place, t.used⟩ :: ⟨place, c, false⟩ :: back) := by
  obtain ⟨header, left, positive, right⟩ := tiled.header
  have cut : Fills t.start [⟨t.start, place, t.used⟩, ⟨place, c, false⟩] c :=
    ⟨rfl, above, rfl, below, rfl⟩
  have value : ∀ x, (linkBack ((h.put place ⟨c, t.start, false⟩).setNext t.start place) c place).ram x =
        if x = c ∧ c ≠ memSize then { h.ram x with prev := place }
        else if x = t.start then { h.ram x with next := place }
        else if x = place then ⟨c, t.start, false⟩ else h.ram x := by
    intro x
    unfold linkBack
    by_cases more : c ≠ memSize
    · rw [if_pos more]
      simp only [Heap.setPrev, Heap.setNext, Heap.put_ram]
      split_ifs <;> first | rfl | omega | simp_all
    · rw [if_neg more]
      simp only [Heap.setNext, Heap.put_ram]
      split_ifs <;> first | rfl | omega | simp_all
  refine tiled.replace left old cut ⟨?_, ?_, trivial⟩ (fun x outside => ?_) ?_ ?_ (fun more => ?_)
  · rw [value, if_neg (show ¬ (t.start = c ∧ _) by omega), if_pos rfl, header]
  · rw [value, if_neg (show ¬ (place = c ∧ _) by omega), if_neg (show ¬ place = t.start by omega),
      if_pos rfl]
  · rw [value, if_neg (by omega), if_neg (by omega), if_neg (by omega)]
  · rw [value, if_neg (show ¬ c = t.start by omega), if_neg (show ¬ c = place by omega)]
    split <;> rfl
  · rw [value, if_neg (show ¬ c = t.start by omega), if_neg (show ¬ c = place by omega)]
    split <;> rfl
  · rw [value, if_pos ⟨rfl, more⟩]
    rfl

end Headers

section Free
variable {h : Heap} {t u : Tile} {ts front back : List Tile}

/-- The lowest free tile, or `ram_end`. -/
def Lowest (ts : List Tile) (lfree : Nat) : Prop :=
  (∀ t ∈ ts, t.used = false → lfree ≤ t.start) ∧
    (lfree = memSize ∨ ∃ t ∈ ts, t.used = false ∧ t.start = lfree)

structure Holds (h : Heap) (ts : List Tile) : Prop extends Tiled h ts where
  separated : Separated ts
  sizes : ∀ t ∈ ts, t.start % 4 = 0 ∧ t.start + (sizeofStructMem + minSize) ≤ t.stop
  lowest : Lowest ts h.lfree

theorem memInit_holds (ram : Nat → StructMem) : Holds (memInit ram) [⟨0, memSize, false⟩] where
  fills := ⟨rfl, by decide, rfl⟩
  headers := ⟨rfl, trivial⟩
  last := rfl
  separated := List.isChain_singleton _
  sizes := by
    intro t member
    obtain rfl := List.mem_singleton.mp member
    decide
  lowest := ⟨by simp [memInit, Heap.put], Or.inr ⟨_, List.mem_singleton_self _, rfl, rfl⟩⟩

theorem plugForward_spec (tiled : Tiled h (front ++ t :: back)) (separated : Separated back)
    (below : h.lfree ≤ t.start) : ∃ c back',
      Tiled (plugForward h t.start) (front ++ ⟨t.start, c, t.used⟩ :: back') ∧
        (plugForward h t.start).lfree = h.lfree ∧ t.stop ≤ c ∧
        (∀ u ∈ back'.head?, u.used = true) ∧
        (back' = back ∨ ∃ u, u.used = false ∧ back = u :: back') := by
  obtain ⟨header, left, positive, right⟩ := tiled.header
  unfold plugForward
  rw [header]
  dsimp only
  cases back with
  | nil =>
    have finish : t.stop = memSize := right
    rw [if_neg (by simp [finish])]
    exact ⟨t.stop, [], tiled, rfl, Nat.le_refl _, by simp, Or.inl rfl⟩
  | cons u back =>
    obtain ⟨start, positive', right'⟩ := right
    have bound := right'.le
    have next : (h.ram t.stop).next = u.stop ∧ (h.ram t.stop).used = u.used := by
      rw [← start]
      exact tiled.headers.get (by simp)
    cases free : u.used with
    | true =>
      rw [if_neg (by simp [next.2, free])]
      exact ⟨t.stop, u :: back, tiled, rfl, Nat.le_refl _, by simp [free], Or.inl rfl⟩
    | false =>
      rw [if_pos ⟨by omega, next.2.trans free, by omega⟩, if_neg (by omega), next.1]
      exact ⟨u.stop, back, tiled.join, rfl, Nat.le_of_lt positive', separated_head separated free,
        Or.inr ⟨u, free, rfl⟩⟩

theorem plugBackward_spec (tiled : Tiled h (front ++ t :: back)) (free : t.used = false)
    (separated : Separated front) (lowest : ∀ u ∈ front, u.used = false → h.lfree ≤ u.start) :
    ∃ a front', Tiled (plugBackward h t.start) (front' ++ ⟨a, t.stop, false⟩ :: back) ∧
      (plugBackward h t.start).lfree = h.lfree ∧ (∀ u ∈ front'.getLast?, u.used = true) ∧
      (front' = front ∧ a = t.start ∨ ∃ u, u.used = false ∧ front = front' ++ [u] ∧ a = u.start) := by
  obtain ⟨header, left, positive, right⟩ := tiled.header
  unfold plugBackward
  rw [header]
  dsimp only
  rcases List.eq_nil_or_concat front with rfl | ⟨front, u, rfl⟩
  · have first : t.start = 0 := Eq.symm left
    rw [if_neg (by simp [lastStart, first])]
    refine ⟨t.start, [], ?_, rfl, by simp, Or.inl ⟨rfl, rfl⟩⟩
    rw [← free]
    exact tiled
  · rw [List.concat_eq_append] at tiled left separated lowest ⊢
    rw [lastStart_concat]
    obtain ⟨b, -, start, positive', stop⟩ := fills_append.mp left
    rw [fills_nil] at stop
    have before : u.start < t.start := by omega
    have prev := tiled.headers.get (show u ∈ front ++ [u] ++ t :: back by simp)
    cases idle : u.used with
    | true =>
      rw [if_neg (by simp [prev.2, idle])]
      refine ⟨t.start, front ++ [u], ?_, rfl, ?_, Or.inl ⟨rfl, rfl⟩⟩
      · rw [← free]
        exact tiled
      · intro v last
        obtain rfl : u = v := by simpa using last
        exact idle
    | false =>
      have lower := lowest u (by simp) idle
      rw [if_pos ⟨by omega, prev.2.trans idle⟩, if_neg (by omega), header]
      refine ⟨u.start, front, ?_, rfl, separated_concat separated idle, Or.inr ⟨u, idle, rfl, rfl⟩⟩
      rw [← idle]
      rw [List.append_assoc] at tiled
      exact Tiled.join tiled

def usedTiles (ts : List Tile) : List Tile := ts.filter (fun t => t.used)

theorem usedTiles_append (front back : List Tile) :
    usedTiles (front ++ back) = usedTiles front ++ usedTiles back := List.filter_append _ _

theorem usedTiles_cons_free (free : t.used = false) (ts : List Tile) :
    usedTiles (t :: ts) = usedTiles ts := List.filter_cons_of_neg (by simp [free])

theorem usedTiles_cons_used (used : t.used = true) (ts : List Tile) :
    usedTiles (t :: ts) = t :: usedTiles ts := List.filter_cons_of_pos used

theorem Tiled.of_ram {h' : Heap} (tiled : Tiled h ts) (same : h'.ram = h.ram) : Tiled h' ts :=
  ⟨tiled.fills, same ▸ tiled.headers, same ▸ tiled.last⟩

/-- The lowest free tile lies in front of a used tile that is not below it. -/
theorem Holds.lowest_front (holds : Holds h (front ++ t :: back)) (used : t.used = true)
    (below : h.lfree ≤ t.start) : ∃ u ∈ front, u.used = false ∧ u.start = h.lfree := by
  obtain ⟨-, -, positive, right⟩ := holds.header
  have bound := right.le
  obtain finish | ⟨u, member, free, place⟩ := holds.lowest.2
  · omega
  · rcases List.mem_append.mp member with before | behind
    · exact ⟨u, before, free, place⟩
    · rcases List.mem_cons.mp behind with rfl | later
      · exact absurd (used.symm.trans free) (by decide)
      · have place' := (right.inside later).1
        omega

theorem memFree_holds (holds : Holds h (front ++ t :: back)) (used : t.used = true) :
    ∃ ts', Holds (memFree h (some (t.start + sizeofStructMem))) ts' ∧
      usedTiles ts' = usedTiles (front ++ back) := by
  obtain ⟨-, left, positive, right⟩ := holds.header
  have bound := right.le
  obtain ⟨least, -⟩ := holds.lowest
  have size := holds.sizes t (by simp)
  have marked := holds.mark false
  obtain ⟨apartFront, apartBack⟩ := separated_parts holds.separated
  -- `lfree` after the block is marked
  obtain ⟨low, lowEq, lowLe, lowLe', lowCase⟩ : ∃ low, low = min t.start h.lfree ∧
      low ≤ t.start ∧ low ≤ h.lfree ∧ (low = t.start ∧ t.start < h.lfree ∨ low = h.lfree) :=
    ⟨_, rfl, by omega, by omega, by omega⟩
  obtain ⟨h₁, same, lfree, result⟩ : ∃ h₁ : Heap,
      h₁.ram = (h.setUsed t.start false).ram ∧ h₁.lfree = low ∧
        memFree h (some (t.start + sizeofStructMem)) = plugHoles h₁ t.start := by
    refine ⟨{ h.setUsed t.start false with lfree := low }, rfl, rfl, ?_⟩
    have inside : ¬ t.start + sizeofStructMem ≥ memSize := by
      simp only [sizeofStructMem, minSize, memSize] at size bound ⊢
      omega
    simp only [memFree]
    rw [if_neg inside, Nat.add_sub_cancel]
    split
    case isTrue lower =>
      rw [show low = t.start by exact lowEq.trans (Nat.min_eq_left (Nat.le_of_lt lower))]
    case isFalse higher =>
      rw [show low = (h.setUsed t.start false).lfree from
        lowEq.trans (Nat.min_eq_right (Nat.le_of_not_lt higher))]
  obtain ⟨c, back', forward, lfree₂, longer, nextUsed, behind⟩ :=
    plugForward_spec (marked.of_ram same) apartBack (lfree.trans_le lowLe)
  obtain ⟨a, front', both, lfree₃, prevUsed, before⟩ :=
    plugBackward_spec forward rfl apartFront (fun u member free => by
      have lower := least u (by simp [member]) free
      omega)
  rw [lfree₂, lfree] at lfree₃
  rw [result]
  have partFront : ∀ u ∈ front', u ∈ front := by
    rcases before with ⟨rfl, -⟩ | ⟨u, -, rfl, -⟩ <;> simp_all
  have partBack : ∀ u ∈ back', u ∈ back := by
    rcases behind with rfl | ⟨u, -, rfl⟩ <;> simp_all
  have begins : a % 4 = 0 ∧ a ≤ t.start ∧ low ≤ a := by
    rcases before with ⟨rfl, rfl⟩ | ⟨u, free, rfl, rfl⟩
    · exact ⟨size.1, Nat.le_refl _, lowLe⟩
    · have lower := least u (by simp) free
      have place := left.inside (show u ∈ front' ++ [u] by simp)
      exact ⟨(holds.sizes u (by simp)).1, by omega, by omega⟩
  refine ⟨front' ++ ⟨a, c, false⟩ :: back', ⟨both, ?_, ?_, ?_, ?_⟩, ?_⟩
  · refine separated_mid ?_ ?_ (Or.inr ⟨prevUsed, nextUsed⟩)
    · rcases before with ⟨rfl, -⟩ | ⟨u, -, rfl, -⟩
      · exact apartFront
      · exact (separated_parts apartFront).1
    · rcases behind with rfl | ⟨u, -, rfl⟩
      · exact apartBack
      · exact List.IsChain.tail apartBack
  · intro u member
    rcases List.mem_append.mp member with before | behind
    · exact holds.sizes u (by simp [partFront u before])
    · rcases List.mem_cons.mp behind with rfl | later
      · have longer' : t.stop ≤ c := longer
        exact ⟨begins.1, show a + _ ≤ c by omega⟩
      · exact holds.sizes u (by simp [partBack u later])
  · intro u member free
    refine lfree₃.trans_le ?_
    rcases List.mem_append.mp member with before | behind
    · exact Nat.le_trans lowLe' (least u (by simp [partFront u before]) free)
    · rcases List.mem_cons.mp behind with rfl | later
      · exact begins.2.2
      · exact Nat.le_trans lowLe' (least u (by simp [partBack u later]) free)
  · refine Or.inr ?_
    rw [show (plugHoles h₁ t.start).lfree = low from lfree₃]
    rcases lowCase with ⟨rfl, lower⟩ | rfl
    · -- no free tile lies in front
      refine ⟨⟨a, c, false⟩, by simp, rfl, ?_⟩
      exact Nat.le_antisymm begins.2.1 begins.2.2
    · obtain ⟨v, member, free, place⟩ := holds.lowest_front used lowLe
      rcases before with ⟨rfl, -⟩ | ⟨u, -, rfl, rfl⟩
      · exact ⟨v, by simp [member], free, place⟩
      · rcases List.mem_append.mp member with before | joined
        · exact ⟨v, by simp [before], free, place⟩
        · obtain rfl := List.mem_singleton.mp joined
          exact ⟨⟨v.start, c, false⟩, by simp, rfl, place⟩
  · rw [usedTiles_append, usedTiles_cons_free rfl, usedTiles_append]
    congr 1
    · rcases before with ⟨rfl, -⟩ | ⟨u, free, rfl, -⟩
      · rfl
      · rw [usedTiles_append, usedTiles_cons_free free]
        exact (List.append_nil _).symm
    · rcases behind with rfl | ⟨u, free, rfl⟩
      · rfl
      · exact (usedTiles_cons_free free back').symm

end Free

section Malloc
variable {h : Heap} {t : Tile} {ts front back : List Tile} {size fuel ptr : Nat}

def Fit (size : Nat) (t : Tile) : Prop := t.used = false ∧ t.start + sizeofStructMem + size ≤ t.stop

theorem search_spec (tiled : Tiled h (front ++ back)) (left : Fills 0 front ptr) (positive : 0 < size)
    (enough : back.length ≤ fuel) :
    search h size fuel ptr = none ∧ (∀ u ∈ back, ¬ Fit size u) ∨
      ∃ skip t rest, back = skip ++ t :: rest ∧ search h size fuel ptr = some t.start ∧
        Fit size t ∧ ∀ u ∈ skip, ¬ Fit size u := by
  induction fuel generalizing front back ptr with
  | zero =>
    obtain rfl := List.length_eq_zero_iff.mp (Nat.le_zero.mp enough)
    exact Or.inl ⟨rfl, by simp⟩
  | succ fuel ih =>
    rw [search]
    by_cases low : ptr < memSize - size
    · rw [if_pos low]
      cases back with
      | nil =>
        have whole := tiled.fills
        rw [List.append_nil] at whole
        have finish := left.end_unique whole
        omega
      | cons t back =>
        obtain ⟨header, left', larger, -⟩ := tiled.header
        obtain rfl : ptr = t.start := left.end_unique left'
        rw [Heap.room, header]
        dsimp only
        by_cases fit : t.used = false ∧ t.stop - (t.start + sizeofStructMem) ≥ size
        · rw [if_pos fit]
          exact Or.inr ⟨[], t, back, rfl, rfl, ⟨fit.1, by omega⟩, by simp⟩
        · rw [if_neg fit]
          have unfit : ¬ Fit size t := fun both => fit ⟨both.1, by have room := both.2; omega⟩
          have further : Fills 0 (front ++ [t]) t.stop :=
            fills_append.mpr ⟨t.start, left, rfl, larger, rfl⟩
          have same : front ++ t :: back = (front ++ [t]) ++ back := by simp
          rw [same] at tiled
          rcases ih tiled further (Nat.le_of_succ_le_succ enough) with ⟨none, unfits⟩ |
            ⟨skip, u, rest, rfl, found, fits, unfits⟩
          · exact Or.inl ⟨none, List.forall_mem_cons.mpr ⟨unfit, unfits⟩⟩
          · exact Or.inr ⟨t :: skip, u, rest, rfl, found, fits,
              List.forall_mem_cons.mpr ⟨unfit, unfits⟩⟩
    · rw [if_neg low]
      refine Or.inl ⟨rfl, fun u member both => ?_⟩
      obtain ⟨b, left', right⟩ := fills_append.mp tiled.fills
      obtain rfl := left.end_unique left'
      have here := right.inside member
      have room := both.2
      simp only [sizeofStructMem] at room
      omega

theorem nextFree_spec (tiled : Tiled h (front ++ back)) (left : Fills 0 front ptr)
    (enough : back.length ≤ fuel) :
    (∀ u ∈ back, u.used = true) ∧ nextFree h fuel ptr = memSize ∨
      ∃ t ∈ back, t.used = false ∧ nextFree h fuel ptr = t.start ∧
        ∀ u ∈ back, u.used = false → t.start ≤ u.start := by
  induction fuel generalizing front back ptr with
  | zero =>
    obtain rfl := List.length_eq_zero_iff.mp (Nat.le_zero.mp enough)
    have whole := tiled.fills
    rw [List.append_nil] at whole
    exact Or.inl ⟨by simp, left.end_unique whole⟩
  | succ fuel ih =>
    rw [nextFree]
    cases back with
    | nil =>
      have whole := tiled.fills
      rw [List.append_nil] at whole
      have finish := left.end_unique whole
      rw [if_neg (by simp [finish])]
      exact Or.inl ⟨by simp, finish⟩
    | cons t back =>
      obtain ⟨header, left', larger, right⟩ := tiled.header
      obtain rfl : ptr = t.start := left.end_unique left'
      have bound := right.le
      rw [header]
      dsimp only
      cases used : t.used with
      | false =>
        rw [if_neg (by simp)]
        refine Or.inr ⟨t, List.mem_cons_self, used, rfl, fun u member _ => ?_⟩
        rcases List.mem_cons.mp member with rfl | later
        · exact Nat.le_refl _
        · have place := (right.inside later).1
          omega
      | true =>
        rw [if_pos ⟨rfl, by omega⟩]
        have further : Fills 0 (front ++ [t]) t.stop :=
          fills_append.mpr ⟨t.start, left, rfl, larger, rfl⟩
        have same : front ++ t :: back = (front ++ [t]) ++ back := by simp
        rw [same] at tiled
        rcases ih tiled further (Nat.le_of_succ_le_succ enough) with ⟨all, finish⟩ |
          ⟨u, member, free, found, least⟩
        · exact Or.inl ⟨List.forall_mem_cons.mpr ⟨used, all⟩, finish⟩
        · refine Or.inr ⟨u, List.mem_cons_of_mem t member, free, found, ?_⟩
          refine List.forall_mem_cons.mpr ⟨fun idle => ?_, least⟩
          exact absurd (used.symm.trans idle) (by decide)

theorem Tiled.length_le (tiled : Tiled h (front ++ back)) : back.length ≤ memSize := by
  obtain ⟨b, -, right⟩ := fills_append.mp tiled.fills
  have count := right.length_le
  omega

theorem take_tiled (holds : Holds h (front ++ t :: back)) (fit : Fit size t) (four : size % 4 = 0)
    (least : minSize ≤ size) : ∃ h₁ : Heap, ∃ stop rest,
      Tiled h₁ (front ++ ⟨t.start, stop, true⟩ :: (rest ++ back)) ∧ h₁.lfree = h.lfree ∧
        take h size t.start =
          (if t.start = h₁.lfree then { h₁ with lfree := nextFree h₁ memSize h₁.lfree } else h₁) ∧
        t.start + sizeofStructMem + size ≤ stop ∧ stop ≤ t.stop ∧
        (rest = [] ∨ rest = [⟨stop, t.stop, false⟩] ∧ stop % 4 = 0 ∧
          stop + (sizeofStructMem + minSize) ≤ t.stop) := by
  obtain ⟨free, room⟩ := fit
  obtain ⟨header, -, positive, -⟩ := holds.header
  unfold take
  rw [Heap.room, header]
  dsimp only
  by_cases split : t.stop - (t.start + sizeofStructMem) ≥ size + sizeofStructMem + minSize
  · rw [if_pos split]
    have place := (holds.sizes t (by simp)).1
    simp only [sizeofStructMem, minSize] at split room least ⊢
    have commute : ((h.put (t.start + 8 + size) ⟨t.stop, t.start, false⟩).setNext t.start
          (t.start + 8 + size)).setUsed t.start true =
        ((h.setUsed t.start true).put (t.start + 8 + size) ⟨t.stop, t.start, false⟩).setNext t.start
          (t.start + 8 + size) := by
      refine congrArg (Heap.mk · h.lfree) (funext fun x => ?_)
      simp only [Heap.setNext, Heap.setUsed, Heap.put, Function.update_apply]
      split_ifs <;> first | rfl | omega
    have marked := holds.mark true
    have cut := marked.cut [] ⟨rfl, positive, rfl⟩
      (show t.start < t.start + 8 + size by omega) (show t.start + 8 + size < t.stop by omega)
    refine ⟨_, t.start + 8 + size, [⟨t.start + 8 + size, t.stop, false⟩], cut, ?_, ?_, Nat.le_refl _,
      by omega, Or.inr ⟨rfl, by omega, by omega⟩⟩
    · exact linkBack_lfree _ _ _
    · rw [commute]
  · rw [if_neg split]
    exact ⟨h.setUsed t.start true, t.stop, [], holds.mark true, rfl, rfl, room, Nat.le_refl _,
      Or.inl rfl⟩

theorem take_holds (holds : Holds h (front ++ t :: back)) (fit : Fit size t) (four : size % 4 = 0)
    (least : minSize ≤ size) : ∃ stop back',
      Holds (take h size t.start) (front ++ ⟨t.start, stop, true⟩ :: back') ∧
        usedTiles back' = usedTiles back ∧ t.start + sizeofStructMem + size ≤ stop ∧
        stop ≤ t.stop := by
  obtain ⟨-, left, positive, right⟩ := holds.header
  obtain ⟨h₁, stop, rest, tiled, lfree, result, room, within, behind⟩ :=
    take_tiled holds fit four least
  obtain ⟨apartFront, apartBack⟩ := separated_parts holds.separated
  obtain ⟨lower, finish⟩ := holds.lowest
  have here := lower t (by simp) fit.1
  have parts : ∀ u ∈ rest, u.used = false ∧ u.stop = t.stop ∧ u.start = stop ∧
      stop % 4 = 0 ∧ stop + (sizeofStructMem + minSize) ≤ t.stop := by
    rcases behind with rfl | ⟨rfl, four', more⟩
    · simp
    · simp [four', more]
  have ramEq : (take h size t.start).ram = h₁.ram := by
    rw [result]
    split <;> rfl
  refine ⟨stop, rest ++ back, ⟨tiled.of_ram ramEq, ?_, ?_, ?_⟩, ?_, room, within⟩
  · refine separated_mid apartFront ?_ (Or.inl rfl)
    rcases behind with rfl | ⟨rfl, -⟩
    · exact apartBack
    · have used := separated_head (List.isChain_append.mp holds.separated).2.1 fit.1
      exact separated_cons apartBack used
  · intro u member
    rcases List.mem_append.mp member with before | behind'
    · exact holds.sizes u (by simp [before])
    · rcases List.mem_cons.mp behind' with rfl | later
      · refine ⟨(holds.sizes t (by simp)).1, ?_⟩
        show t.start + _ ≤ stop
        omega
      · rcases List.mem_append.mp later with new | old
        · obtain ⟨-, stop', start', four', more⟩ := parts u new
          rw [start', stop']
          exact ⟨four', more⟩
        · exact holds.sizes u (by simp [old])
  · rw [result]
    by_cases first : t.start = h₁.lfree
    · rw [if_pos first]
      have none : ∀ u ∈ front, u.used = true := by
        intro u member
        by_contra idle
        have place := lower u (by simp [member]) (by simpa using idle)
        have inside := left.inside member
        omega
      have found := nextFree_spec tiled left tiled.length_le
      rw [← first]
      rcases found with ⟨all, end'⟩ | ⟨u, member, free, place, least'⟩
      · refine ⟨fun u member free => ?_, Or.inl end'⟩
        rcases List.mem_append.mp member with before | later
        · exact absurd ((none u before).symm.trans free) (by decide)
        · exact absurd ((all u later).symm.trans free) (by decide)
      · refine ⟨fun v member' free' => ?_, Or.inr ⟨u, by simp [member], free, place.symm⟩⟩
        rcases List.mem_append.mp member' with before | later
        · exact absurd ((none v before).symm.trans free') (by decide)
        · exact place.trans_le (least' v later free')
    · rw [if_neg first]
      refine ⟨fun u member free => ?_, Or.inr ?_⟩
      · rw [lfree]
        rcases List.mem_append.mp member with before | behind'
        · exact lower u (by simp [before]) free
        · rcases List.mem_cons.mp behind' with rfl | later
          · exact here
          · rcases List.mem_append.mp later with new | old
            · obtain ⟨-, -, start', -⟩ := parts u new
              omega
            · exact lower u (by simp [old]) free
      · have inside := right.le
        rcases finish with finish | ⟨u, member, free, place⟩
        · omega
        · refine ⟨u, ?_, free, place.trans lfree.symm⟩
          rcases List.mem_append.mp member with before | behind'
          · simp [before]
          · rcases List.mem_cons.mp behind' with rfl | later
            · omega
            · simp [later]
  · rw [usedTiles_append]
    refine congrArg (· ++ usedTiles back) (List.filter_eq_nil_iff.mpr fun u member => ?_)
    simp [(parts u member).1]

theorem request_spec (size : Nat) : request size % 4 = 0 ∧ minSize ≤ request size := by
  have aligned : memAlignSize size % 4 = 0 := by
    unfold memAlignSize
    omega
  unfold request
  simp only [minSize]
  omega

/-- All tiles in front of `lfree` are used. -/
theorem Holds.from_lfree (holds : Holds h ts) : ∃ front back, ts = front ++ back ∧
    Fills 0 front h.lfree ∧ ∀ u ∈ front, u.used = true := by
  obtain ⟨lower, finish⟩ := holds.lowest
  rcases finish with finish | ⟨t, member, -, place⟩
  · refine ⟨ts, [], (List.append_nil ts).symm, finish ▸ holds.fills, fun u member => ?_⟩
    by_contra idle
    have place := lower u member (by simpa using idle)
    have inside := holds.fills.inside member
    omega
  · obtain ⟨front, back, rfl⟩ := List.append_of_mem member
    obtain ⟨-, left, -⟩ := holds.header
    rw [place] at left
    refine ⟨front, t :: back, rfl, left, fun u member => ?_⟩
    by_contra idle
    have place := lower u (by simp [member]) (by simpa using idle)
    have inside := left.inside member
    omega

theorem memMalloc_spec (holds : Holds h ts) (size : Nat) :
    memMalloc h size = (none, h) ∧ (size = 0 ∨ ∀ u ∈ ts, ¬ Fit (request size) u) ∨
      ∃ front t back stop back', ts = front ++ t :: back ∧ size ≠ 0 ∧ Fit (request size) t ∧
        (∀ u ∈ front, ¬ Fit (request size) u) ∧
        (memMalloc h size).1 = some (t.start + sizeofStructMem) ∧
        Holds (memMalloc h size).2 (front ++ ⟨t.start, stop, true⟩ :: back') ∧
        usedTiles back' = usedTiles back ∧
        t.start + sizeofStructMem + request size ≤ stop := by
  obtain ⟨four, least⟩ := request_spec size
  unfold memMalloc
  by_cases zero : size = 0
  · rw [if_pos zero]
    exact Or.inl ⟨rfl, Or.inl zero⟩
  rw [if_neg zero]
  dsimp only
  by_cases large : request size > memSize
  · rw [if_pos large]
    refine Or.inl ⟨rfl, Or.inr fun u member both => ?_⟩
    have inside := holds.fills.inside member
    have room := both.2
    omega
  rw [if_neg large]
  obtain ⟨front, back, rfl, left, used⟩ := holds.from_lfree
  have unfit : ∀ u ∈ front, ¬ Fit (request size) u := fun u member both =>
    absurd ((used u member).symm.trans both.1) (by decide)
  rcases search_spec holds.toTiled left (Nat.lt_of_lt_of_le (by decide) least)
    holds.toTiled.length_le with ⟨none, unfits⟩ | ⟨skip, t, rest, rfl, found, fit, unfits⟩
  · rw [none]
    refine Or.inl ⟨rfl, Or.inr fun u member => ?_⟩
    exact (List.mem_append.mp member).elim (unfit u) (unfits u)
  · rw [found]
    have same : front ++ (skip ++ t :: rest) = (front ++ skip) ++ t :: rest := by simp
    rw [same] at holds
    obtain ⟨stop, back', after, kept, room, -⟩ := take_holds holds fit four least
    refine Or.inr ⟨front ++ skip, t, rest, stop, back', same, zero, fit, fun u member => ?_, rfl,
      after, kept, room⟩
    exact (List.mem_append.mp member).elim (unfit u) (unfits u)

end Malloc

section Trim
variable {h : Heap} {t : Tile} {ts front back : List Tile}

theorem Holds.shrink {h' : Heap} {place c : Nat} (rest : List Tile)
    (holds : Holds h (front ++ t :: (rest ++ back))) (used : t.used = true)
    (old : Fills t.start (t :: rest) c)
    (next : ∀ u ∈ back.head?, u.used = true) (four : place % 4 = 0) (within : place ≤ t.stop)
    (block : t.start + (sizeofStructMem + minSize) ≤ place)
    (gap : place + (sizeofStructMem + minSize) ≤ c)
    (ram : h'.ram = (linkBack ((h.put place ⟨c, t.start, false⟩).setNext t.start place) c place).ram)
    (lfree : h'.lfree = min place h.lfree) :
    Holds h' (front ++ ⟨t.start, place, true⟩ :: ⟨place, c, false⟩ :: back) := by
  obtain ⟨-, left, -, right⟩ := holds.header
  obtain ⟨-, positive, behind⟩ := old
  have place' : t.start < place := by
    simp only [sizeofStructMem] at block
    omega
  have below : place < c := by
    simp only [sizeofStructMem] at gap
    omega
  have cut := holds.cut rest ⟨rfl, positive, behind⟩ place' below
  rw [used] at cut
  obtain ⟨b, behind', right'⟩ := fills_append.mp right
  obtain rfl := behind.end_unique behind'
  obtain ⟨apartFront, apartBack⟩ := separated_parts holds.separated
  have apartEnd : Separated back := (List.isChain_append.mp apartBack).2.1
  obtain ⟨lower, finish⟩ := holds.lowest
  have finalPlace := right'.le
  have outside : ∀ u ∈ back, place ≤ u.start := by
    intro u member
    have inside := right'.inside member
    have longer := behind'.le
    omega
  refine ⟨cut.of_ram ram, ?_, fun u member => ?_, ?_⟩
  · refine separated_mid apartFront ?_ (Or.inl rfl)
    exact separated_cons apartEnd next
  · rcases List.mem_append.mp member with before | behind
    · exact holds.sizes u (by simp [before])
    · rcases List.mem_cons.mp behind with rfl | later
      · exact ⟨(holds.sizes t (by simp)).1, block⟩
      · rcases List.mem_cons.mp later with rfl | last
        · exact ⟨four, gap⟩
        · exact holds.sizes u (by simp [last])
  · rw [lfree]
    refine ⟨fun u member idle => ?_, ?_⟩
    · rcases List.mem_append.mp member with before | behind
      · exact Nat.le_trans (Nat.min_le_right _ _) (lower u (by simp [before]) idle)
      · rcases List.mem_cons.mp behind with rfl | later
        · exact absurd idle (by simp)
        · rcases List.mem_cons.mp later with rfl | last
          · exact Nat.min_le_left _ _
          · exact Nat.le_trans (Nat.min_le_left _ _) (outside u last)
    · by_cases low : place ≤ h.lfree
      · exact Or.inr ⟨⟨place, c, false⟩, by simp, rfl, (Nat.min_eq_left low).symm⟩
      · rw [Nat.min_eq_right (Nat.le_of_not_le low)]
        rcases finish with finish | ⟨u, member, idle, start⟩
        · omega
        · refine Or.inr ⟨u, ?_, idle, start⟩
          rcases List.mem_append.mp member with before | behind
          · simp [before]
          · rcases List.mem_cons.mp behind with rfl | later
            · exact absurd (used.symm.trans idle) (by decide)
            · have inside := right.inside later
              omega

theorem Holds.lowest_next {u : Tile} (holds : Holds h (front ++ t :: u :: back))
    (used : t.used = true) (free : u.used = false) : h.lfree = u.start ∨ h.lfree < t.start := by
  obtain ⟨-, left, positive, right⟩ := holds.header
  obtain ⟨lower, finish⟩ := holds.lowest
  have here := lower u (by simp) free
  obtain ⟨start, positive', right'⟩ := right
  have bound := right'.le
  rcases finish with finish | ⟨v, member, idle, place⟩
  · omega
  · rcases List.mem_append.mp member with before | behind
    · have inside := left.inside before
      omega
    · rcases List.mem_cons.mp behind with rfl | later
      · exact absurd (used.symm.trans idle) (by decide)
      · rcases List.mem_cons.mp later with rfl | last
        · exact Or.inl place.symm
        · have inside := right'.inside last
          omega

theorem memTrim_holds (holds : Holds h (front ++ t :: back)) (used : t.used = true) (newsize : Nat) :
    memTrim h (t.start + sizeofStructMem) newsize = (none, h) ∨
      (memTrim h (t.start + sizeofStructMem) newsize).1 = some (t.start + sizeofStructMem) ∧
      ∃ stop back',
        Holds (memTrim h (t.start + sizeofStructMem) newsize).2
            (front ++ ⟨t.start, stop, true⟩ :: back') ∧
          usedTiles back' = usedTiles back ∧
          t.start + sizeofStructMem + request newsize ≤ stop := by
  obtain ⟨four, least⟩ := request_spec newsize
  obtain ⟨header, left, positive, right⟩ := holds.header
  obtain ⟨apartFront, apartBack⟩ := separated_parts holds.separated
  obtain ⟨place, width⟩ := holds.sizes t (by simp)
  have bound := right.le
  unfold memTrim
  dsimp only
  generalize request newsize = size at four least
  by_cases large : size > memSize
  · rw [if_pos large]
    exact Or.inl rfl
  have inside : ¬ t.start + sizeofStructMem ≥ memSize := by
    simp only [sizeofStructMem, minSize, memSize] at width bound ⊢
    omega
  rw [if_neg large, if_neg inside, Nat.add_sub_cancel, header]
  dsimp only
  by_cases larger : size > t.stop - t.start - sizeofStructMem
  · rw [if_pos larger]
    exact Or.inl rfl
  rw [if_neg larger]
  by_cases same : size = t.stop - t.start - sizeofStructMem
  · rw [if_pos same]
    refine Or.inr ⟨rfl, t.stop, back, ?_, rfl, by omega⟩
    rw [← used]
    exact holds
  rw [if_neg same]
  have block : t.start + (sizeofStructMem + minSize) ≤ t.start + sizeofStructMem + size := by omega
  have within : t.start + sizeofStructMem + size < t.stop := by omega
  have four' : (t.start + sizeofStructMem + size) % 4 = 0 := by
    simp only [sizeofStructMem]
    omega
  refine Or.inr ?_
  generalize cutPlace : t.start + sizeofStructMem + size = ptr2 at block within four'
  by_cases next : (h.ram t.stop).used = false
  · -- the free tile behind the block grows
    rw [if_pos next]
    cases back with
    | nil =>
      have finish : t.stop = memSize := right
      rw [finish] at next
      exact absurd (next.symm.trans holds.last) (by decide)
    | cons u back =>
      have start := right.1
      have header' := holds.headers.get (show u ∈ front ++ t :: u :: back by simp)
      rw [start] at header'
      have free := header'.2.symm.trans next
      have usedNext := separated_head apartBack free
      have width' := (holds.sizes u (by simp)).2
      refine ⟨rfl, ptr2, ⟨ptr2, u.stop, false⟩ :: back, ?_, ?_, Nat.le_refl _⟩
      · refine holds.shrink [u] used ⟨rfl, positive, start, right.2.1, rfl⟩ usedNext
          four' (Nat.le_of_lt within) block (by omega) ?_ ?_
        · rw [header'.1]
          unfold linkBack
          split <;> split <;> rfl
        · have low := holds.lowest_next used free
          simp only [linkBack_lfree, Heap.setNext, Heap.put_lfree, apply_ite Heap.lfree]
          split <;> omega
      · rw [usedTiles_cons_free rfl, usedTiles_cons_free free]
  rw [if_neg next]
  by_cases split : size + sizeofStructMem + minSize ≤ t.stop - t.start - sizeofStructMem
  · rw [if_pos split]
    refine ⟨rfl, ptr2, ⟨ptr2, t.stop, false⟩ :: back, ?_, ?_, Nat.le_refl _⟩
    · refine holds.shrink [] used ⟨rfl, positive, rfl⟩ ?_ four'
        (Nat.le_of_lt within) block (by omega) ?_ ?_
      · cases back with
        | nil => simp
        | cons u back =>
          have header' := holds.headers.get (show u ∈ front ++ t :: u :: back by simp)
          rw [right.1] at header'
          simpa [header'.2] using next
      · unfold linkBack
        split <;> split <;> rfl
      · simp only [linkBack_lfree, Heap.setNext, Heap.put_lfree, apply_ite Heap.lfree]
        split <;> omega
    · exact usedTiles_cons_free rfl back
  · rw [if_neg split]
    refine ⟨rfl, t.stop, back, ?_, rfl, by omega⟩
    rw [← used]
    exact holds

end Trim

end BoxFirmware.MemHeap
