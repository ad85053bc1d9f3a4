import BoxFirmware.GuardedRun
import BoxFirmware.Malloc
import Mathlib.Data.Fintype.Basic

/-! `mymalloc` and `myfree` called by several tasks on one pool that `main` has readied. A
step of a call reads or writes one map entry; what a call computes without the map comes
with the step before it. A call of a task is over once its last entry is written, or its
search has found nothing. -/
namespace BoxFirmware.MallocTasks
open GuardedRun Malloc RunMap

/-- Where a task is: the loop over `offset`, entered with `next`, the loop that marks a run,
the read of `nmemb`, and the loop that clears a run. -/
inductive Call
  | idle
  | scan (size nmemb next cmemb : Nat)
  | mark (size nmemb offset i : Nat)
  | read (ptr index : Nat)
  | clear (ptr index nmemb i : Nat)
  deriving DecidableEq

inductive Op
  | malloc (size : Nat)
  | free (ptr : Nat)
  deriving DecidableEq

/-- The map, the tasks, the results that no call to `myfree` has taken back yet, and the
calls that returned, with their results. -/
structure St (τ : Type) where
  memmap : Nat → Nat
  call : τ → Call
  live : List Alloc
  log : List (Op × Nat)

inductive Label (τ : Type)
  | malloc (t : τ) (size : Nat)
  | free (t : τ) (ptr : Nat)
  | entry (t : τ)

section Model

variable (L : Layout) (memx : Bank) {τ : Type} [DecidableEq τ]

def goTo (t : τ) (call : Call) (s : St τ) : St τ :=
  { s with call := Function.update s.call t call }

def mallocReturn (t : τ) (size ptr : Nat) (s : St τ) : St τ :=
  { goTo t .idle s with
    live := if ptr = 0 then s.live else ⟨ptr, size⟩ :: s.live
    log := s.log ++ [(.malloc size, ptr)] }

def freeReturn (t : τ) (ptr : Nat) (s : St τ) : St τ :=
  { goTo t .idle s with log := s.log ++ [(.free ptr, 0)] }

/-- The pointer for the offset that `mymem_malloc` returns. -/
def pointer (offset : Nat) : Nat :=
  if offset = 0xFFFFFFFF then 0 else (L.membase memx + offset) % 2^32

def mallocCall (t : τ) (size : Nat) (s : St τ) : St τ :=
  if size = 0 then mallocReturn t size 0 s
  else goTo t (.scan size (blocksFor memx size) (memtblsize memx) 0) s

def freeCall (t : τ) (ptr : Nat) (s : St τ) : St τ :=
  let offset := (ptr + 2^32 - L.membase memx) % 2^32
  if ptr = 0 then freeReturn t ptr s
  else if offset < memsize memx then
    { goTo t (.read ptr (offset / memblksize memx)) s with live := s.live.filter (·.ptr ≠ ptr) }
  else freeReturn t ptr s

def setEntry (i v : Nat) (s : St τ) : St τ := { s with memmap := Function.update s.memmap i v }

def scanStep (t : τ) (size nmemb next cmemb : Nat) (s : St τ) : St τ :=
  match next with
  | 0 => mallocReturn t size (pointer L memx 0xFFFFFFFF) s
  | offset + 1 =>
    let cmemb := if s.memmap offset = 0 then (cmemb + 1) % 2^16 else 0
    goTo t (if cmemb = nmemb then .mark size nmemb offset 0 else .scan size nmemb offset cmemb) s

def markStep (t : τ) (size nmemb offset i : Nat) (s : St τ) : St τ :=
  if i + 1 < nmemb then goTo t (.mark size nmemb offset (i + 1)) (setEntry (offset + i) nmemb s)
  else mallocReturn t size (pointer L memx (offset * memblksize memx))
    (if i < nmemb then setEntry (offset + i) nmemb s else s)

def readStep (t : τ) (ptr index : Nat) (s : St τ) : St τ :=
  if s.memmap index = 0 then freeReturn t ptr s
  else goTo t (.clear ptr index (s.memmap index) 0) s

def clearStep (t : τ) (ptr index nmemb i : Nat) (s : St τ) : St τ :=
  if i + 1 < nmemb then goTo t (.clear ptr index nmemb (i + 1)) (setEntry (index + i) 0 s)
  else freeReturn t ptr (setEntry (index + i) 0 s)

/-- A task starts a call when it is in none. -/
def step : Label τ → St τ → St τ
  | .malloc t size, s => if s.call t = .idle then mallocCall memx t size s else s
  | .free t ptr, s => if s.call t = .idle then freeCall L memx t ptr s else s
  | .entry t, s =>
    match s.call t with
    | .idle => s
    | .scan size nmemb next cmemb => scanStep L memx t size nmemb next cmemb s
    | .mark size nmemb offset i => markStep L memx t size nmemb offset i s
    | .read ptr index => readStep t ptr index s
    | .clear ptr index nmemb i => clearStep t ptr index nmemb i s

/-- The readied pool, before the tasks run. -/
def start : St τ := ⟨fun _ => 0, fun _ => .idle, [], []⟩

def callStep : Op → Pool → Nat × Pool
  | .malloc size, p => mymalloc L memx p size
  | .free ptr, p => (0, myfree L memx p ptr)

def empty : Pool := ⟨fun _ => 0, true⟩

end Model

def Call.allocates : Call → Bool
  | .scan _ _ _ _ => true
  | .mark _ _ _ _ => true
  | _ => false

def Call.writes : Call → Bool
  | .mark _ _ _ _ => true
  | .clear _ _ _ _ => true
  | _ => false

/-- The call has written a part of its entries. -/
def Call.partway : Call → Bool
  | .mark _ _ _ i => 0 < i
  | .clear _ _ _ i => 0 < i
  | _ => false

/-- While a call to `mymalloc` is under way no other call writes an entry, and none starts
while another has written a part of its own. A call asks for fewer blocks than a `u16` counts,
and frees `NULL`, an address outside the pool, or a result that is still live. -/
def Exclusive (L : Layout) (memx : Bank) {τ : Type} : Label τ → St τ → Prop
  | .malloc t size, s => (size + 31) / 32 < 2^16 ∧ ∀ u, u ≠ t → (s.call u).partway = false
  | .free _ ptr, s => ptr < 2^32 ∧ (ptr = 0 ∨ ptr < L.membase memx ∨
      L.membase memx + memsize memx ≤ ptr ∨ ∃ a ∈ s.live, a.ptr = ptr)
  | .entry t, s => (s.call t).writes = true → ∀ u, u ≠ t → (s.call u).allocates = false

def Call.touched : Call → Nat → Prop
  | .mark _ _ offset i, j => offset ≤ j ∧ j < offset + i
  | .clear _ index _ i, j => index ≤ j ∧ j < index + i
  | _, _ => False

def Call.frees : Call → Option Nat
  | .read ptr _ => some ptr
  | .clear ptr _ _ _ => some ptr
  | _ => none

section Invariant

variable (L : Layout) (memx : Bank)

/-- What a call has found and done, where `p` is the pool that the returned calls leave and
`kept` are its allocations. -/
def Fits (p : Pool) (kept : List Alloc) (memmap : Nat → Nat) : Call → Prop
  | .idle => True
  | .scan size nmemb next cmemb =>
    (0 < size ∧ (size + 31) / 32 < 2^16 ∧ nmemb = blocksFor memx size) ∧
      searchRun p.memmap nmemb next cmemb = searchRun p.memmap nmemb (memtblsize memx) 0 ∧
        next ≤ memtblsize memx
  | .mark size nmemb offset i =>
    (0 < size ∧ (size + 31) / 32 < 2^16 ∧ nmemb = blocksFor memx size) ∧
      searchRun p.memmap nmemb (memtblsize memx) 0 = some offset ∧ i < nmemb ∧
        ∀ j, offset ≤ j → j < offset + i → memmap j = nmemb
  | .read ptr index => ∃ a ∈ kept, a.ptr = ptr ∧ (a.run L memx).start = index
  | .clear ptr index nmemb i => ∃ a ∈ kept, a.ptr = ptr ∧ a.run L memx = ⟨index, nmemb⟩ ∧
      i < nmemb ∧ ∀ j, index ≤ j → j < index + i → memmap j = 0

/-- The returned calls are a sequential run, whose pool the map shows but for the entries
that calls under way have written. -/
structure Sound {τ : Type} (s : St τ) (p : Pool) (kept : List Alloc) : Prop where
  results : outputs (callStep L memx) (s.log.map Prod.fst) empty = s.log.map Prod.snd
  pool : final (callStep L memx) (s.log.map Prod.fst) empty = p
  ready : p.memrdy = true
  owned : Owned L memx p kept
  live : s.live.Sublist kept
  covered : ∀ a ∈ kept, a ∈ s.live ∨ ∃ t, (s.call t).frees = some a.ptr
  given : ∀ t, ∀ a ∈ s.live, (s.call t).frees ≠ some a.ptr
  fits : ∀ t, Fits L memx p kept s.memmap (s.call t)
  alone : ∀ t u, u ≠ t → (s.call t).allocates = true → (s.call u).partway = false
  apart : ∀ t u ptr, (s.call t).frees = some ptr → (s.call u).frees = some ptr → u = t
  map : ∀ j, j < memtblsize memx → (∀ t, ¬ (s.call t).touched j) → s.memmap j = p.memmap j

theorem sound_start (τ : Type) : Sound L memx (start : St τ) empty [] where
  results := rfl
  pool := rfl
  ready := rfl
  owned := ⟨fun _ => rfl, Tiles.nil _ _ (fun _ _ => rfl), nofun⟩
  live := List.Sublist.refl _
  covered := nofun
  given _ := nofun
  fits _ := trivial
  alone _ _ _ := nofun
  apart _ _ _ := nofun
  map _ _ _ := rfl

end Invariant

theorem Call.untouched {call : Call} (none : call.partway = false) (j : Nat) :
    ¬ call.touched j := by
  cases call with
  | mark size nmemb offset i =>
    have zero : i = 0 := by simpa [Call.partway] using none
    rintro ⟨lower, upper⟩
    omega
  | clear ptr index nmemb i =>
    have zero : i = 0 := by simpa [Call.partway] using none
    rintro ⟨lower, upper⟩
    omega
  | _ => exact id

section Calls

variable {τ : Type} [DecidableEq τ] {calls : τ → Call} {t : τ} {call : Call}

/-- A task goes on: no call allocates while another has written a part of its entries. -/
theorem alone_update
    (alone : ∀ u v, v ≠ u → (calls u).allocates = true → (calls v).partway = false)
    (mine : call.allocates = true → ∀ v, v ≠ t → (calls v).partway = false)
    (theirs : call.partway = true → ∀ u, u ≠ t → (calls u).allocates = false) :
    ∀ u v, v ≠ u → (Function.update calls t call u).allocates = true →
      (Function.update calls t call v).partway = false := by
  intro u v other allocates
  by_cases here : u = t
  · subst here
    rw [Function.update_self] at allocates
    rw [Function.update_of_ne other]
    exact mine allocates v other
  · rw [Function.update_of_ne here] at allocates
    by_cases there : v = t
    · rw [there, Function.update_self]
      by_contra partway
      rw [theirs (Bool.not_eq_false _ ▸ partway) u here] at allocates
      cases allocates
    · rw [Function.update_of_ne there]
      exact alone u v other allocates

/-- Two calls free the same pointer only when they are one. -/
theorem apart_update
    (apart : ∀ u v ptr, (calls u).frees = some ptr → (calls v).frees = some ptr → v = u)
    (own : ∀ ptr, call.frees = some ptr → ∀ u, u ≠ t → (calls u).frees ≠ some ptr) :
    ∀ u v ptr, (Function.update calls t call u).frees = some ptr →
      (Function.update calls t call v).frees = some ptr → v = u := by
  intro u v ptr first second
  by_cases here : u = t
  · by_cases there : v = t
    · rw [here, there]
    · rw [here, Function.update_self] at first
      rw [Function.update_of_ne there] at second
      exact absurd second (own ptr first v there)
  · rw [Function.update_of_ne here] at first
    by_cases there : v = t
    · rw [there, Function.update_self] at second
      exact absurd first (own ptr second u here)
    · rw [Function.update_of_ne there] at second
      exact apart u v ptr first second

end Calls

section Steps

variable {L : Layout} {memx : Bank} {τ : Type} [DecidableEq τ] {s : St τ} {p : Pool}
  {kept : List Alloc}

@[simp] theorem goTo_self (t : τ) (call : Call) (s : St τ) : (goTo t call s).call t = call :=
  Function.update_self _ _ _

theorem goTo_other {t u : τ} (other : u ≠ t) (call : Call) (s : St τ) :
    (goTo t call s).call u = s.call u :=
  Function.update_of_ne other _ _

theorem goTo_frees {t : τ} {call : Call} {s : St τ} (frees : call.frees = (s.call t).frees) (u : τ) :
    ((goTo t call s).call u).frees = (s.call u).frees := by
  by_cases here : u = t
  · rw [here, goTo_self, frees]
  · rw [goTo_other here]

theorem Sound.move (sound : Sound L memx s p kept) {t : τ} {call : Call}
    (fits : Fits L memx p kept s.memmap call) (frees : call.frees = (s.call t).frees)
    (touched : ∀ j, (s.call t).touched j → call.touched j) (partway : call.partway = false)
    (alone : call.allocates = true → ∀ u, u ≠ t → (s.call u).partway = false) :
    Sound L memx (goTo t call s) p kept := by
  refine ⟨sound.results, sound.pool, sound.ready, sound.owned, sound.live, ?_, ?_, ?_, ?_, ?_, ?_⟩
  · simp only [goTo_frees frees]
    exact sound.covered
  · simp only [goTo_frees frees]
    exact sound.given
  · exact (Function.forall_update_iff s.call (fun _ call => Fits L memx p kept s.memmap call)).mpr
      ⟨fits, fun u _ => sound.fits u⟩
  · exact alone_update sound.alone alone (fun some => by rw [partway] at some; cases some)
  · simp only [goTo_frees frees]
    exact sound.apart
  · intro j inside none
    refine sound.map j inside (fun u written => none u ?_)
    by_cases here : u = t
    · rw [here] at written
      rw [here, goTo_self]
      exact touched j written
    · rw [goTo_other here]
      exact written

omit [DecidableEq τ] in
theorem Sound.logged (sound : Sound L memx s p kept) (op : Op) (r : Nat)
    (same : callStep L memx op p = (r, p)) :
    Sound L memx { s with log := s.log ++ [(op, r)] } p kept := by
  refine ⟨?_, ?_, sound.ready, sound.owned, sound.live, sound.covered, sound.given, sound.fits,
    sound.alone, sound.apart, sound.map⟩
  · rw [List.map_append, List.map_append, outputs_append, sound.results, sound.pool]
    simp [same]
  · rw [List.map_append, final_append, sound.pool]
    simp [same]

theorem Sound.leave (sound : Sound L memx s p kept) {t : τ} (frees : (s.call t).frees = none)
    (touched : ∀ j, ¬ (s.call t).touched j) : Sound L memx (goTo t .idle s) p kept :=
  sound.move trivial frees.symm (fun j written => absurd written (touched j)) rfl nofun

theorem sound_null (sound : Sound L memx s p kept) {t : τ} {size : Nat}
    (frees : (s.call t).frees = none) (touched : ∀ j, ¬ (s.call t).touched j)
    (none : mymalloc L memx p size = (0, p)) : Sound L memx (mallocReturn t size 0 s) p kept :=
  (sound.leave frees touched).logged (.malloc size) 0 none

theorem sound_noFree (sound : Sound L memx s p kept) {t : τ} {ptr : Nat}
    (frees : (s.call t).frees = none) (touched : ∀ j, ¬ (s.call t).touched j)
    (same : myfree L memx p ptr = p) : Sound L memx (freeReturn t ptr s) p kept :=
  (sound.leave frees touched).logged (.free ptr) 0 (congrArg (Prod.mk 0) same)

theorem mymalloc_none (ready : p.memrdy = true) {size : Nat}
    (none : searchRun p.memmap (blocksFor memx size) (memtblsize memx) 0 = none) :
    mymalloc L memx p size = (0, p) := by
  simp only [mymalloc, mymemMalloc, ready, none, if_true]
  split <;> rfl

theorem mymalloc_found (ready : p.memrdy = true) {size offset : Nat} (pos : 0 < size)
    (found : searchRun p.memmap (blocksFor memx size) (memtblsize memx) 0 = some offset) :
    mymalloc L memx p size = (pointer L memx (offset * memblksize memx),
      { p with memmap := fill p.memmap offset (blocksFor memx size) (blocksFor memx size) }) := by
  have nonzero : size ≠ 0 := Nat.pos_iff_ne_zero.mp pos
  simp only [mymalloc, mymemMalloc, ready, found, if_true, if_neg nonzero, pointer]
  split <;> rfl

/-- A run that a search finds is free. -/
theorem found_free {size offset : Nat} (word : (size + 31) / 32 < 2^16) (pos : 0 < size)
    (found : searchRun p.memmap (blocksFor memx size) (memtblsize memx) 0 = some offset) :
    offset + (size + 31) / 32 ≤ memtblsize memx ∧
      ∀ j, offset ≤ j → j < offset + (size + 31) / 32 → p.memmap j = 0 := by
  rw [blocksFor_word memx word] at found
  exact searchRun_some p.memmap _ _ 0 offset (by omega) word (fun j _ _ => by omega) found

/-- While a search is under way the map is that of the pool, but for what it has marked. -/
theorem Sound.quiet (sound : Sound L memx s p kept) {t : τ}
    (allocates : (s.call t).allocates = true) {j : Nat} (inside : j < memtblsize memx)
    (untouched : ¬ (s.call t).touched j) : s.memmap j = p.memmap j := by
  refine sound.map j inside (fun u written => ?_)
  by_cases here : u = t
  · exact untouched (here ▸ written)
  · exact Call.untouched (sound.alone t u here allocates) j written

theorem sound_scan (sound : Sound L memx s p kept) {t : τ} {size nmemb next cmemb : Nat}
    (call : s.call t = .scan size nmemb next cmemb) :
    Sound L memx (scanStep L memx t size nmemb next cmemb s) p kept := by
  have fits := sound.fits t
  rw [call] at fits
  obtain ⟨asked, found, inside⟩ := fits
  have untouched : ∀ j, ¬ (s.call t).touched j := by
    rw [call]
    exact fun _ => id
  cases next with
  | zero =>
    refine sound_null sound (by rw [call]; rfl) untouched (mymalloc_none sound.ready ?_)
    rw [← asked.2.2, ← found]
    rfl
  | succ offset =>
    have entry := sound.quiet (by rw [call]; rfl) inside (untouched offset)
    have alone : ∀ u, u ≠ t → (s.call u).partway = false :=
      fun u other => sound.alone t u other (by rw [call]; rfl)
    rw [searchRun, ← entry] at found
    simp only [scanStep]
    generalize (if s.memmap offset = 0 then (cmemb + 1) % 2^16 else 0) = cmemb' at found ⊢
    split
    · rename_i enough
      rw [if_pos enough] at found
      refine sound.move ⟨asked, found.symm, ?_, fun j lower upper => ?_⟩ (by rw [call]; rfl)
        (fun j written => absurd written (untouched j)) rfl (fun _ => alone)
      · rw [asked.2.2, blocksFor_word memx asked.2.1]
        have pos := asked.1
        omega
      · omega
    · rename_i more
      rw [if_neg more] at found
      exact sound.move ⟨asked, found, Nat.le_of_succ_le inside⟩ (by rw [call]; rfl)
        (fun j written => absurd written (untouched j)) rfl (fun _ => alone)

theorem Sound.write (sound : Sound L memx s p kept) {t : τ} {call : Call} {e v : Nat}
    (fits : Fits L memx p kept (Function.update s.memmap e v) call)
    (others : ∀ u, u ≠ t → Fits L memx p kept (Function.update s.memmap e v) (s.call u))
    (frees : call.frees = (s.call t).frees)
    (touched : ∀ j, call.touched j ↔ (s.call t).touched j ∨ j = e)
    (exclusive : ∀ u, u ≠ t → (s.call u).allocates = false)
    (allocates : call.allocates = true → (s.call t).allocates = true) :
    Sound L memx (goTo t call (setEntry e v s)) p kept := by
  have same : ∀ u, ((goTo t call (setEntry e v s)).call u).frees = (s.call u).frees :=
    goTo_frees frees
  refine ⟨sound.results, sound.pool, sound.ready, sound.owned, sound.live, ?_, ?_, ?_, ?_, ?_, ?_⟩
  · simp only [same]
    exact sound.covered
  · simp only [same]
    exact sound.given
  · exact (Function.forall_update_iff s.call
      (fun _ call => Fits L memx p kept (Function.update s.memmap e v) call)).mpr ⟨fits, others⟩
  · exact alone_update sound.alone
      (fun allocating v other => sound.alone t v other (allocates allocating))
      (fun _ => exclusive)
  · simp only [same]
    exact sound.apart
  · intro j inside none
    have mine := none t
    rw [goTo_self, touched, not_or] at mine
    show Function.update s.memmap e v j = _
    rw [Function.update_of_ne mine.2]
    refine sound.map j inside (fun u written => ?_)
    by_cases here : u = t
    · exact mine.1 (here ▸ written)
    · have other := none u
      rw [goTo_other here] at other
      exact other written

theorem fits_unwritten {call : Call} {memmap : Nat → Nat} (fits : Fits L memx p kept memmap call)
    (none : call.partway = false) (memmap' : Nat → Nat) : Fits L memx p kept memmap' call := by
  cases call with
  | mark size nmemb offset i =>
    obtain ⟨asked, found, inside, -⟩ := fits
    exact ⟨asked, found, inside, fun j lower upper => absurd ⟨lower, upper⟩ (Call.untouched none j)⟩
  | clear ptr index nmemb i =>
    obtain ⟨a, member, same, run, inside, -⟩ := fits
    exact ⟨a, member, same, run, inside,
      fun j lower upper => absurd ⟨lower, upper⟩ (Call.untouched none j)⟩
  | _ => exact fits

theorem fits_cleared {call : Call} {memmap : Nat → Nat} (fits : Fits L memx p kept memmap call)
    (other : call.allocates = false) (e : Nat) :
    Fits L memx p kept (Function.update memmap e 0) call := by
  cases call with
  | mark size nmemb offset i => cases other
  | clear ptr index nmemb i =>
    obtain ⟨a, member, same, run, inside, zero⟩ := fits
    refine ⟨a, member, same, run, inside, fun j lower upper => ?_⟩
    by_cases here : j = e
    · rw [here, Function.update_self]
    · rw [Function.update_of_ne here]
      exact zero j lower upper
  | _ => exact fits

theorem Fits.freed {call : Call} {memmap : Nat → Nat} (fits : Fits L memx p kept memmap call)
    {ptr : Nat} (frees : call.frees = some ptr) : ∃ a ∈ kept, a.ptr = ptr := by
  cases call with
  | read ptr' index =>
    obtain ⟨a, member, same, -⟩ := fits
    exact ⟨a, member, same.trans (Option.some.inj frees)⟩
  | clear ptr' index nmemb i =>
    obtain ⟨a, member, same, -⟩ := fits
    exact ⟨a, member, same.trans (Option.some.inj frees)⟩
  | _ => cases frees

theorem fits_kept {call : Call} {memmap : Nat → Nat} {p' : Pool} {kept' : List Alloc}
    (fits : Fits L memx p kept memmap call) (other : call.allocates = false)
    (keeps : ∀ a ∈ kept, call.frees = some a.ptr → a ∈ kept') :
    Fits L memx p' kept' memmap call := by
  cases call with
  | idle => trivial
  | scan size nmemb next cmemb => cases other
  | mark size nmemb offset i => cases other
  | read ptr index =>
    obtain ⟨a, member, same, start⟩ := fits
    exact ⟨a, keeps a member (congrArg some same.symm), same, start⟩
  | clear ptr index nmemb i =>
    obtain ⟨a, member, same, rest⟩ := fits
    exact ⟨a, keeps a member (congrArg some same.symm), same, rest⟩

theorem sound_mark (sound : Sound L memx s p kept) {t : τ} {size nmemb offset i : Nat}
    (call : s.call t = .mark size nmemb offset i) (more : i + 1 < nmemb)
    (exclusive : ∀ u, u ≠ t → (s.call u).allocates = false) :
    Sound L memx (goTo t (.mark size nmemb offset (i + 1)) (setEntry (offset + i) nmemb s)) p
      kept := by
  have fits := sound.fits t
  rw [call] at fits
  obtain ⟨asked, found, inside, marked⟩ := fits
  refine sound.write ⟨asked, found, more, fun j lower upper => ?_⟩ (fun u other => ?_)
    (by rw [call]; rfl) (fun j => ?_) exclusive (fun _ => by rw [call]; rfl)
  · by_cases last : j = offset + i
    · rw [last, Function.update_self]
    · rw [Function.update_of_ne last]
      exact marked j lower (by omega)
  · exact fits_unwritten (sound.fits u) (sound.alone t u other (by rw [call]; rfl)) _
  · rw [call]
    simp only [Call.touched]
    omega

theorem Sound.settle (sound : Sound L memx s p kept) {t : τ} (op : Op) {r : Nat} {p' : Pool}
    {kept' live' : List Alloc} {memmap' : Nat → Nat}
    (stepped : callStep L memx op p = (r, p')) (ready : p'.memrdy = true)
    (owned : Owned L memx p' kept') (live : live'.Sublist kept')
    (covered : ∀ a ∈ kept', a ∈ live' ∨ ∃ u, u ≠ t ∧ (s.call u).frees = some a.ptr)
    (given : ∀ u, u ≠ t → ∀ a ∈ live', (s.call u).frees ≠ some a.ptr)
    (exclusive : ∀ u, u ≠ t → (s.call u).allocates = false)
    (keeps : ∀ u, u ≠ t → ∀ a ∈ kept, (s.call u).frees = some a.ptr → a ∈ kept')
    (fits : ∀ u, u ≠ t → Fits L memx p kept memmap' (s.call u))
    (map : ∀ j, j < memtblsize memx → (∀ u, u ≠ t → ¬ (s.call u).touched j) →
      memmap' j = p'.memmap j) :
    Sound L memx ⟨memmap', Function.update s.call t .idle, live', s.log ++ [(op, r)]⟩ p' kept' := by
  have same : ∀ u, u ≠ t → Function.update s.call t .idle u = s.call u :=
    fun u other => Function.update_of_ne other _ _
  refine ⟨?_, ?_, ready, owned, live, fun a member => ?_, ?_, ?_, ?_, ?_, fun j inside none => ?_⟩
  · rw [List.map_append, List.map_append, outputs_append, sound.results, sound.pool]
    simp [stepped]
  · rw [List.map_append, final_append, sound.pool]
    simp [stepped]
  · rcases covered a member with given | ⟨u, other, freed⟩
    · exact .inl given
    · exact .inr ⟨u, (congrArg Call.frees (same u other)).trans freed⟩
  · exact (Function.forall_update_iff s.call
      (fun _ call => ∀ a ∈ live', call.frees ≠ some a.ptr)).mpr ⟨fun _ _ => nofun, given⟩
  · exact (Function.forall_update_iff s.call (fun _ call => Fits L memx p' kept' memmap' call)).mpr
      ⟨trivial, fun u other => fits_kept (fits u other) (exclusive u other) (keeps u other)⟩
  · exact alone_update sound.alone nofun nofun
  · exact apart_update sound.apart nofun
  · refine map j inside (fun u other written => none u ?_)
    dsimp only
    rw [same u other]
    exact written

omit [DecidableEq τ] in
theorem Sound.covered_other (sound : Sound L memx s p kept) {t : τ} {a : Alloc} (member : a ∈ kept)
    (own : (s.call t).frees ≠ some a.ptr) :
    a ∈ s.live ∨ ∃ u, u ≠ t ∧ (s.call u).frees = some a.ptr :=
  (sound.covered a member).imp_right
    (fun ⟨u, freed⟩ => ⟨u, fun here => own (here ▸ freed), freed⟩)

theorem mem_granted {ptr size : Nat} {live : List Alloc} {a : Alloc} :
    a ∈ (if ptr = 0 then live else ⟨ptr, size⟩ :: live) ↔
      ptr ≠ 0 ∧ a = ⟨ptr, size⟩ ∨ a ∈ live := by
  by_cases null : ptr = 0 <;> simp [null]

theorem sound_marked (sound : Sound L memx s p kept) {t : τ} {size nmemb offset i : Nat}
    (call : s.call t = .mark size nmemb offset i) (last : ¬ i + 1 < nmemb)
    (exclusive : ∀ u, u ≠ t → (s.call u).allocates = false) :
    ∃ p' kept', Sound L memx (mallocReturn t size (pointer L memx (offset * memblksize memx))
      (setEntry (offset + i) nmemb s)) p' kept' := by
  have fits := sound.fits t
  rw [call] at fits
  obtain ⟨⟨pos, word, count⟩, found, inside, marked⟩ := fits
  subst count
  have table := memtblsize_mul memx
  have fit := (found_free word pos found).1
  have small : size ≤ memsize memx := by omega
  have eq := mymalloc_found (L := L) sound.ready pos found
  have owned := sound.owned.malloc size small
  rw [eq] at owned
  generalize pointer L memx (offset * memblksize memx) = ptr at eq owned ⊢
  have alone : ∀ u, u ≠ t → (s.call u).partway = false :=
    fun u other => sound.alone t u other (by rw [call]; rfl)
  have idle : (s.call t).frees = none := by rw [call]; rfl
  refine ⟨_, _, sound.settle (.malloc size) eq sound.ready owned ?_ ?_ ?_ exclusive ?_
    (fun u other => fits_unwritten (sound.fits u) (alone u other) _) ?_⟩
  · split
    · exact sound.live
    · exact sound.live.cons_cons _
  · intro a member
    rcases mem_granted.mp member with new | old
    · exact .inl (mem_granted.mpr (.inl new))
    · refine (sound.covered_other old (t := t) ?_).imp_left (fun held => mem_granted.mpr (.inr held))
      rw [idle]
      exact nofun
  · intro u other a member
    rcases mem_granted.mp member with ⟨some, rfl⟩ | old
    · intro freed
      obtain ⟨b, held, same⟩ := (sound.fits u).freed freed
      rw [if_neg some] at owned
      exact (show Owned L memx _ ([] ++ _ :: kept) from owned).ptr_ne b held same
    · exact sound.given u a old
  · exact fun u other a member freed => mem_granted.mpr (.inr member)
  · intro j bound none
    refine update_fill (by omega) marked (fun out => sound.quiet (by rw [call]; rfl) bound ?_)
    rw [call]
    simp only [Call.touched]
    omega

omit [DecidableEq τ] in
theorem Sound.untouched (sound : Sound L memx s p kept) {a : Alloc} (member : a ∈ kept) {j : Nat}
    (lower : (a.run L memx).start ≤ j) (upper : j < (a.run L memx).start + (a.run L memx).len)
    {u : τ} (other : (s.call u).frees ≠ some a.ptr) : ¬ (s.call u).touched j := by
  obtain ⟨pos, bound⟩ := sound.owned.tiles.inside _ (List.mem_map_of_mem member)
  have filled := sound.owned.tiles.filled _ (List.mem_map_of_mem member) j lower upper
  have fits := sound.fits u
  intro written
  cases call : s.call u with
  | mark size nmemb offset i =>
    rw [call] at fits written
    obtain ⟨⟨large, word, count⟩, found, inside, -⟩ := fits
    rw [count] at found inside
    rw [blocksFor_word memx word] at inside
    have zero := (found_free word large found).2 j written.1 (by have := written.2; omega)
    omega
  | clear ptr index nmemb i =>
    rw [call] at fits written other
    obtain ⟨b, held, rfl, run, inside, -⟩ := fits
    have apart := sound.owned.apart_of_ne member held (fun same => other (congrArg some same))
    rw [run] at apart
    obtain ⟨above, below⟩ := written
    simp only [Run.Apart] at apart
    omega
  | _ =>
    rw [call] at written
    exact written

theorem sound_read (sound : Sound L memx s p kept) {t : τ} {ptr index : Nat}
    (call : s.call t = .read ptr index) :
    Sound L memx (readStep t ptr index s) p kept := by
  have fits := sound.fits t
  rw [call] at fits
  obtain ⟨a, member, same, start⟩ := fits
  obtain ⟨pos, bound⟩ := sound.owned.tiles.inside _ (List.mem_map_of_mem member)
  have filled := sound.owned.tiles.filled _ (List.mem_map_of_mem member) index (by omega) (by omega)
  have mine : (s.call t).frees = some a.ptr := by rw [call, same]; rfl
  have unread : ∀ u, ¬ (s.call u).touched index := by
    intro u
    by_cases here : u = t
    · rw [here, call]
      exact id
    · exact sound.untouched member (by omega) (by omega)
        (fun freed => here (sound.apart t u a.ptr mine freed))
  have entry : s.memmap index = (a.run L memx).len :=
    (sound.map index (by omega) unread).trans filled
  have nonzero : s.memmap index ≠ 0 := by omega
  simp only [readStep, if_neg nonzero]
  refine sound.move ⟨a, member, same, ?_, by omega, fun j lower upper => by omega⟩
    (by rw [call]; rfl) (fun j written => ?_) rfl nofun
  · rw [entry, ← start]
  · rw [call] at written
    exact absurd written id

theorem sound_clear (sound : Sound L memx s p kept) {t : τ} {ptr index nmemb i : Nat}
    (call : s.call t = .clear ptr index nmemb i) (more : i + 1 < nmemb)
    (exclusive : ∀ u, u ≠ t → (s.call u).allocates = false) :
    Sound L memx (goTo t (.clear ptr index nmemb (i + 1)) (setEntry (index + i) 0 s)) p kept := by
  have fits := sound.fits t
  rw [call] at fits
  obtain ⟨a, member, same, run, inside, zero⟩ := fits
  refine sound.write ⟨a, member, same, run, more, fun j lower upper => ?_⟩
    (fun u other => fits_cleared (sound.fits u) (exclusive u other) _) (by rw [call]; rfl)
    (fun j => ?_) exclusive nofun
  · by_cases last : j = index + i
    · rw [last, Function.update_self]
    · rw [Function.update_of_ne last]
      exact zero j lower (by omega)
  · rw [call]
    simp only [Call.touched]
    omega

theorem sound_cleared (sound : Sound L memx s p kept) {t : τ} {ptr index nmemb i : Nat}
    (call : s.call t = .clear ptr index nmemb i) (last : ¬ i + 1 < nmemb)
    (exclusive : ∀ u, u ≠ t → (s.call u).allocates = false) :
    ∃ p' kept', Sound L memx (freeReturn t ptr (setEntry (index + i) 0 s)) p' kept' := by
  have fits := sound.fits t
  rw [call] at fits
  obtain ⟨a, member, rfl, run, inside, zero⟩ := fits
  have freed := sound.owned.free_map member
  have owned := sound.owned.free a.ptr (.inr ⟨a, member, rfl⟩)
  rw [freed] at owned
  rw [run] at freed owned
  have mine : (s.call t).frees = some a.ptr := by rw [call]; rfl
  refine ⟨_, _, sound.settle (.free a.ptr) (congrArg (Prod.mk 0) freed) sound.ready owned ?_ ?_
    (fun u other b member => sound.given u b member) exclusive ?_
    (fun u other => fits_cleared (sound.fits u) (exclusive u other) _) ?_⟩
  · have kept_live : s.live.filter (·.ptr ≠ a.ptr) = s.live :=
      List.filter_eq_self.mpr (fun b given => by
        have other := sound.given t b given
        rw [mine] at other
        simpa using fun same => other (congrArg some same.symm))
    have shorter := sound.live.filter (·.ptr ≠ a.ptr)
    rw [kept_live] at shorter
    exact shorter
  · intro b left
    obtain ⟨member, other⟩ := List.mem_filter.mp left
    refine sound.covered_other member (fun same => ?_)
    rw [mine] at same
    simp [(Option.some.inj same).symm] at other
  · intro u other b member freed
    refine List.mem_filter.mpr ⟨member, ?_⟩
    have distinct : b.ptr ≠ a.ptr := by
      intro same
      rw [same] at freed
      exact other (sound.apart t u a.ptr mine freed)
    simpa using distinct
  · intro j bound none
    show Function.update s.memmap (index + i) 0 j = fill p.memmap index nmemb 0 j
    refine update_fill (by omega) zero (fun out => sound.map j bound (fun u written => ?_))
    by_cases here : u = t
    · rw [here, call] at written
      simp only [Call.touched] at written
      omega
    · exact none u here written

theorem sound_mallocCall (sound : Sound L memx s p kept) {t : τ} {size : Nat}
    (call : s.call t = .idle) (word : (size + 31) / 32 < 2^16)
    (alone : ∀ u, u ≠ t → (s.call u).partway = false) :
    Sound L memx (mallocCall memx t size s) p kept := by
  have untouched : ∀ j, ¬ (s.call t).touched j := by
    rw [call]
    exact fun _ => id
  rw [mallocCall]
  split
  · rename_i zero
    refine sound_null sound (by rw [call]; rfl) untouched ?_
    simp [mymalloc, mymemMalloc, zero, sound.ready]
  · rename_i nonzero
    exact sound.move ⟨⟨Nat.pos_of_ne_zero nonzero, word, rfl⟩, rfl, Nat.le_refl _⟩
      (by rw [call]; rfl) (fun j written => absurd written (untouched j)) rfl (fun _ => alone)

theorem sound_given (sound : Sound L memx s p kept) {t : τ} {a : Alloc}
    (call : s.call t = .idle) (member : a ∈ s.live) :
    Sound L memx { goTo t (.read a.ptr (a.run L memx).start) s with
      live := s.live.filter (·.ptr ≠ a.ptr) } p kept := by
  have idle : (s.call t).frees = none := by rw [call]; rfl
  have held := sound.live.subset member
  refine ⟨sound.results, sound.pool, sound.ready, sound.owned,
    List.filter_sublist.trans sound.live, fun b kept => ?_, ?_, ?_, ?_, ?_, fun j bound none => ?_⟩
  · by_cases same : b.ptr = a.ptr
    · refine .inr ⟨t, ?_⟩
      dsimp only
      rw [goTo_self, same]
      rfl
    · refine (sound.covered b kept).imp (fun given => ?_) (fun ⟨u, freed⟩ => ⟨u, ?_⟩)
      · exact List.mem_filter.mpr ⟨given, by simpa using same⟩
      · dsimp only
        rw [goTo_other (fun here => by rw [here, idle] at freed; cases freed)]
        exact freed
  · refine (Function.forall_update_iff s.call
      (fun _ call => ∀ b ∈ s.live.filter (·.ptr ≠ a.ptr), call.frees ≠ some b.ptr)).mpr
      ⟨fun b left same => ?_, fun u _ b left => sound.given u b (List.mem_filter.mp left).1⟩
    have other := (List.mem_filter.mp left).2
    simp [(Option.some.inj same).symm] at other
  · exact (Function.forall_update_iff s.call (fun _ call => Fits L memx p kept s.memmap call)).mpr
      ⟨⟨a, held, rfl, rfl⟩, fun u _ => sound.fits u⟩
  · exact alone_update sound.alone nofun nofun
  · refine apart_update sound.apart (fun ptr freed u _ => ?_)
    rw [← Option.some.inj freed]
    exact sound.given u a member
  · refine sound.map j bound (fun u written => none u ?_)
    dsimp only
    rw [goTo_other (fun here => by rw [here, call] at written; exact written)]
    exact written

theorem sound_freeCall (sound : Sound L memx s p kept) {t : τ} {ptr : Nat}
    (call : s.call t = .idle) (word : ptr < 2^32)
    (asked : ptr = 0 ∨ ptr < L.membase memx ∨ L.membase memx + memsize memx ≤ ptr ∨
      ∃ a ∈ s.live, a.ptr = ptr) : Sound L memx (freeCall L memx t ptr s) p kept := by
  have idle : (s.call t).frees = none := by rw [call]; rfl
  have untouched : ∀ j, ¬ (s.call t).touched j := by
    rw [call]
    exact fun _ => id
  have bound := memsize_le memx
  have base := L.fits memx
  simp only [freeCall, memblksize_eq]
  split
  · rename_i null
    exact sound_noFree sound idle untouched (by simp [myfree, null])
  · rename_i nonzero
    split
    · rename_i inside
      have taken : ∃ a ∈ s.live, a.ptr = ptr := by
        rcases asked with null | below | above | taken
        · exact absurd null nonzero
        · omega
        · omega
        · exact taken
      obtain ⟨a, member, rfl⟩ := taken
      have place := sound.owned.placed a (sound.live.subset member)
      have index : (a.ptr + 2^32 - L.membase memx) % 2^32 / 32 = (a.run L memx).start := by omega
      rw [index]
      exact sound_given sound call member
    · rename_i outside
      refine sound_noFree sound idle untouched (myfree_outside L memx p ptr sound.ready word ?_)
      omega

theorem sound_step (label : Label τ) (exclusive : Exclusive L memx label s)
    (sound : Sound L memx s p kept) :
    ∃ p' kept', Sound L memx (step L memx label s) p' kept' := by
  cases label with
  | malloc t size =>
    simp only [step]
    split
    · rename_i call
      exact ⟨p, kept, sound_mallocCall sound call exclusive.1 exclusive.2⟩
    · exact ⟨p, kept, sound⟩
  | free t ptr =>
    simp only [step]
    split
    · rename_i call
      exact ⟨p, kept, sound_freeCall sound call exclusive.1 exclusive.2⟩
    · exact ⟨p, kept, sound⟩
  | entry t =>
    cases call : s.call t with
    | idle =>
      simp only [step, call]
      exact ⟨p, kept, sound⟩
    | scan size nmemb next cmemb =>
      simp only [step, call]
      exact ⟨p, kept, sound_scan sound call⟩
    | mark size nmemb offset i =>
      have others := exclusive (by rw [call]; rfl)
      simp only [step, call, markStep]
      by_cases more : i + 1 < nmemb
      · rw [if_pos more]
        exact ⟨p, kept, sound_mark sound call more others⟩
      · have fits := sound.fits t
        rw [call] at fits
        rw [if_neg more, if_pos fits.2.2.1]
        exact sound_marked sound call more others
    | read ptr index =>
      simp only [step, call]
      exact ⟨p, kept, sound_read sound call⟩
    | clear ptr index nmemb i =>
      have others := exclusive (by rw [call]; rfl)
      simp only [step, call, clearStep]
      by_cases more : i + 1 < nmemb
      · rw [if_pos more]
        exact ⟨p, kept, sound_clear sound call more others⟩
      · rw [if_neg more]
        exact sound_cleared sound call more others

theorem sound_run {labels : List (Label τ)}
    (exclusive : Along (step L memx) (Exclusive L memx) labels start) :
    ∃ p kept, Sound L memx (run (step L memx) labels start) p kept :=
  run_invariant (I := fun s => ∃ p kept, Sound L memx s p kept)
    (fun label _ exclusive ⟨_, _, sound⟩ => sound_step label exclusive sound) exclusive
    ⟨empty, [], sound_start L memx τ⟩

omit [DecidableEq τ] in
/-- The entries of a live result hold its length whatever the other tasks are at. -/
theorem Sound.entry (sound : Sound L memx s p kept) {a : Alloc} (member : a ∈ s.live) {j : Nat}
    (lower : (a.run L memx).start ≤ j)
    (upper : j < (a.run L memx).start + (a.run L memx).len) :
    s.memmap j = (a.run L memx).len := by
  have held := sound.live.subset member
  have bound := (sound.owned.tiles.inside _ (List.mem_map_of_mem held)).2
  have untouched : ∀ u, ¬ (s.call u).touched j :=
    fun u => sound.untouched held lower upper (sound.given u a member)
  rw [sound.map j (by omega) untouched]
  exact sound.owned.tiles.filled _ (List.mem_map_of_mem held) j lower upper

omit [DecidableEq τ] in
theorem Sound.tiles (sound : Sound L memx s p kept) (idle : ∀ t, s.call t = .idle) :
    Tiles (memtblsize memx) s.memmap (s.live.map (Alloc.run L memx)) := by
  have all : ∀ a ∈ kept, a ∈ s.live := by
    intro a member
    rcases sound.covered a member with given | ⟨u, freed⟩
    · exact given
    · rw [idle u] at freed
      cases freed
  refine ⟨fun r member => ?_, sound.owned.tiles.apart.sublist (sound.live.map _),
    fun r member j lower upper => ?_, fun j bound out => ?_⟩
  · exact sound.owned.tiles.inside r (List.map_subset _ sound.live.subset member)
  · obtain ⟨a, given, rfl⟩ := List.mem_map.mp member
    exact sound.entry given lower upper
  · have untouched : ∀ u, ¬ (s.call u).touched j := by
      intro u
      rw [idle u]
      exact id
    rw [sound.map j bound untouched]
    refine sound.owned.tiles.clear j bound (fun r member => ?_)
    obtain ⟨a, held, rfl⟩ := List.mem_map.mp member
    exact out _ (List.mem_map_of_mem (all a held))

end Steps

/-- In every state that the tasks reach, the live results own separate blocks of the pool, the
map holds their lengths in them, and the returned calls have the results that they have one
after the other, in the order in which they returned. -/
theorem mymalloc_myfree_tasks (L : Layout) (memx : Bank) (τ : Type) [DecidableEq τ]
    (labels : List (Label τ)) (exclusive : Along (step L memx) (Exclusive L memx) labels start) :
    let s := run (step L memx) labels start
    (∀ a ∈ s.live, a.ptr = L.membase memx + 32 * (a.run L memx).start ∧
      a.size ≤ 32 * (a.run L memx).len ∧
      a.ptr + 32 * (a.run L memx).len ≤ L.membase memx + memsize memx ∧
      ∀ j, (a.run L memx).start ≤ j → j < (a.run L memx).start + (a.run L memx).len →
        s.memmap j = (a.run L memx).len) ∧
    s.live.Pairwise (fun a b => a.ptr + 32 * (a.run L memx).len ≤ b.ptr ∨
      b.ptr + 32 * (b.run L memx).len ≤ a.ptr) ∧
    ((∀ t, s.call t = .idle) →
      Tiles (memtblsize memx) s.memmap (s.live.map (Alloc.run L memx))) ∧
    outputs (callStep L memx) (s.log.map Prod.fst) empty = s.log.map Prod.snd := by
  intro s
  obtain ⟨p, kept, sound⟩ := sound_run exclusive
  have table := memtblsize_mul memx
  refine ⟨fun a member => ?_, ?_, sound.tiles, sound.results⟩
  · have held := sound.live.subset member
    have place := sound.owned.placed a held
    have bound := (sound.owned.tiles.inside _ (List.mem_map_of_mem held)).2
    have enough : a.size ≤ 32 * (a.run L memx).len := by
      simp only [Alloc.run]
      omega
    exact ⟨place, enough, by omega, fun j lower upper => sound.entry member lower upper⟩
  · have apart := List.pairwise_map.mp (sound.owned.tiles.apart.sublist (sound.live.map _))
    refine apart.imp_of_mem (fun {a b} memberA memberB away => ?_)
    have placeA := sound.owned.placed a (sound.live.subset memberA)
    have placeB := sound.owned.placed b (sound.live.subset memberB)
    simp only [Run.Apart] at away
    omega

instance {L : Layout} {memx : Bank} {τ : Type} [Fintype τ] [DecidableEq τ] (label : Label τ)
    (s : St τ) : Decidable (Exclusive L memx label s) :=
  match label with
  | .malloc _ _ => inferInstanceAs (Decidable (_ ∧ _))
  | .free _ _ => inferInstanceAs (Decidable (_ ∧ _))
  | .entry _ => inferInstanceAs (Decidable (_ → _))

theorem mymalloc_myfree_tasks_two :
    let labels : List (Label Bool) := [.malloc true 32, .entry true, .entry true,
      .free true 0x20013FE0, .malloc false 32, .entry false, .entry false, .entry false,
      .entry true, .entry true]
    Along (step mapLayout .sramin) (Exclusive mapLayout .sramin) labels start ∧
      (run (step mapLayout .sramin) labels start).live.map Alloc.ptr = [0x20013FC0] ∧
      (run (step mapLayout .sramin) labels start).log.map Prod.snd = [0x20013FE0, 0x20013FC0, 0] ∧
      (run (step mapLayout .sramin) labels start).live.Pairwise (fun a b =>
        a.ptr + 32 * (a.run mapLayout .sramin).len ≤ b.ptr ∨
          b.ptr + 32 * (b.run mapLayout .sramin).len ≤ a.ptr) := by
  intro labels
  have exclusive : Along (step mapLayout .sramin) (Exclusive mapLayout .sramin) labels start := by
    decide +kernel
  exact ⟨exclusive, by decide +kernel, by decide +kernel,
    (mymalloc_myfree_tasks mapLayout .sramin Bool labels exclusive).2.1⟩

/-- Two calls that both search before either marks get the same block, the first one's length is
overwritten in it, and neither order of the calls has these results. -/
theorem mymalloc_overlap :
    let labels : List (Label Bool) := [.malloc true 64, .entry true, .entry true,
      .malloc false 32, .entry false, .entry true, .entry true, .entry false]
    let s := run (step mapLayout .sramin) labels start
    s.log = [(.malloc 64, 0x20013FC0), (.malloc 32, 0x20013FE0)] ∧
      ¬ s.live.Pairwise (fun a b => a.ptr + 32 * (a.run mapLayout .sramin).len ≤ b.ptr ∨
        b.ptr + 32 * (b.run mapLayout .sramin).len ≤ a.ptr) ∧
      s.memmap 2558 = 2 ∧ s.memmap 2559 = 1 ∧
      outputs (callStep mapLayout .sramin) [.malloc 64, .malloc 32] empty =
        [0x20013FC0, 0x20013FA0] ∧
      outputs (callStep mapLayout .sramin) [.malloc 32, .malloc 64] empty =
        [0x20013FE0, 0x20013FA0] := by
  decide +kernel

end BoxFirmware.MallocTasks
