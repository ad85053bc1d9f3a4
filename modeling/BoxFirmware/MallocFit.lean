import BoxFirmware.Malloc

/-! Which block `mymem_malloc` takes. The search goes down from the top of the map and
counts the free entries it has just passed, so it stops at the highest stretch that is
long enough, whatever the calls before have left in the map. -/
namespace BoxFirmware.Malloc
open RunMap

/-- A stretch of `n` free entries of the pool. -/
def FreeRun (memx : Bank) (p : Pool) (start n : Nat) : Prop :=
  start + n ≤ memtblsize memx ∧ ∀ i, start ≤ i → i < start + n → p.memmap i = 0

/-- Every sequence of calls on the three pools, whatever they ask for and free. -/
inductive Called (L : Layout) : (Bank → Pool) → Prop
  | start (dev : Bank → Pool) (zero : ∀ memx i, (dev memx).memmap i = 0) : Called L dev
  | malloc {dev} (memx : Bank) (size : Nat) (h : Called L dev) :
      Called L (Function.update dev memx (mymalloc L memx (dev memx) size).2)
  | free {dev} (memx : Bank) (ptr : Nat) (h : Called L dev) :
      Called L (Function.update dev memx (myfree L memx (dev memx) ptr))

section Search

variable {memmap : Nat → Nat} {nmemb size : Nat}

/-- The loop has come down to `next`: the `cmemb` entries from there are free, the one
behind them is not, and no stretch that starts at `next` or above is long enough. -/
structure Passed (memmap : Nat → Nat) (nmemb size next cmemb : Nat) : Prop where
  short : cmemb < nmemb
  inside : next + cmemb ≤ size
  free : ∀ i, next ≤ i → i < next + cmemb → memmap i = 0
  stop : next + cmemb = size ∨ memmap (next + cmemb) ≠ 0
  none : ∀ start, next ≤ start → start + nmemb ≤ size →
    ¬ ∀ i, start ≤ i → i < start + nmemb → memmap i = 0

theorem passed_top (pos : 0 < nmemb) : Passed memmap nmemb size size 0 where
  short := pos
  inside := Nat.le_refl _
  free i lower upper := by omega
  stop := .inl rfl
  none start lower fit := by omega

theorem Passed.occupied {next cmemb : Nat} (passed : Passed memmap nmemb size (next + 1) cmemb)
    (busy : memmap next ≠ 0) : Passed memmap nmemb size next 0 where
  short := Nat.lt_of_le_of_lt (Nat.zero_le cmemb) passed.short
  inside := by
    have := passed.inside
    omega
  free i lower upper := by omega
  stop := .inr busy
  none start lower fit free := by
    rcases Nat.eq_or_lt_of_le lower with rfl | above
    · have short := passed.short
      exact busy (free next (Nat.le_refl _) (by omega))
    · exact passed.none start above fit free

theorem Passed.counted {next cmemb : Nat} (passed : Passed memmap nmemb size (next + 1) cmemb)
    (blank : memmap next = 0) (more : cmemb + 1 ≠ nmemb) :
    Passed memmap nmemb size next (cmemb + 1) where
  short := by
    have := passed.short
    omega
  inside := by
    have := passed.inside
    omega
  free i lower upper := by
    rcases Nat.eq_or_lt_of_le lower with rfl | above
    · exact blank
    · exact passed.free i above (by omega)
  stop := by
    rw [← Nat.add_assoc, Nat.add_right_comm]
    exact passed.stop
  none start lower fit free := by
    rcases Nat.eq_or_lt_of_le lower with rfl | above
    · -- the stretch would reach the entry that ends the free ones
      have short := passed.short
      rcases passed.stop with top | busy
      · omega
      · exact busy (free (next + 1 + cmemb) (by omega) (by omega))
    · exact passed.none start above fit free

/-- The search is sound, complete and takes the highest stretch. -/
theorem searchRun_spec (word : nmemb < 2^16) {next cmemb : Nat}
    (passed : Passed memmap nmemb size next cmemb) :
    match searchRun memmap nmemb next cmemb with
    | some offset => offset + nmemb ≤ size ∧
        (∀ i, offset ≤ i → i < offset + nmemb → memmap i = 0) ∧
        ∀ start, offset < start → start + nmemb ≤ size →
          ¬ ∀ i, start ≤ i → i < start + nmemb → memmap i = 0
    | none => ∀ start, start + nmemb ≤ size →
        ¬ ∀ i, start ≤ i → i < start + nmemb → memmap i = 0 := by
  induction next generalizing cmemb with
  | zero => exact fun start => passed.none start (Nat.zero_le start)
  | succ next ih =>
    have short := passed.short
    rw [searchRun]
    by_cases blank : memmap next = 0
    · have count : (cmemb + 1) % 2^16 = cmemb + 1 := by omega
      rw [if_pos blank, count]
      by_cases enough : cmemb + 1 = nmemb
      · rw [if_pos enough]
        have inside := passed.inside
        refine ⟨by omega, fun i lower upper => ?_, passed.none⟩
        rcases Nat.eq_or_lt_of_le lower with rfl | above
        · exact blank
        · exact passed.free i above (by omega)
      · rw [if_neg enough]
        exact ih (passed.counted blank enough)
    · have pos : ¬ 0 = nmemb := by omega
      rw [if_neg blank, if_neg pos]
      exact ih (passed.occupied blank)

end Search

section Calls

variable {L : Layout} {memx : Bank} {p : Pool}

def Fresh (memx : Bank) (p : Pool) : Prop :=
  p.memrdy = false → ∀ i < memtblsize memx, p.memmap i = 0

theorem Fresh.init (fresh : Fresh memx p) :
    (if p.memrdy then p else mymemInit memx p).memmap = p.memmap := by
  cases rdy : p.memrdy with
  | true => simp
  | false =>
    funext i
    by_cases inside : i < memtblsize memx
    · rw [fresh rdy i inside]
      exact fill_inside _ _ _ _ (Nat.zero_le i) (by omega)
    · exact fill_outside _ _ _ _ (by omega)

theorem mymemMalloc_memrdy (memx : Bank) (p : Pool) (size : Nat) :
    (mymemMalloc memx p size).2.memrdy = true := by
  have ready : (if p.memrdy then p else mymemInit memx p).memrdy = true := by
    cases rdy : p.memrdy <;> simp [rdy, mymemInit]
  rw [mymemMalloc]
  generalize (if p.memrdy then p else mymemInit memx p) = q at ready ⊢
  dsimp only
  split
  · exact ready
  · split <;> exact ready

theorem mymalloc_snd (L : Layout) (memx : Bank) (p : Pool) (size : Nat) :
    (mymalloc L memx p size).2 = (mymemMalloc memx p size).2 := by
  rw [mymalloc]
  split <;> rfl

theorem mymemFree_memrdy (memx : Bank) (p : Pool) (offset : Nat) :
    (mymemFree memx p offset).2.memrdy = true := by
  rw [mymemFree]
  cases rdy : p.memrdy with
  | false => rfl
  | true =>
    dsimp only [Bool.not_true]
    rw [if_neg (by decide)]
    split
    · rfl
    · exact rdy

theorem Fresh.free (fresh : Fresh memx p) (ptr : Nat) : Fresh memx (myfree L memx p ptr) := by
  rw [myfree]
  split
  · exact fresh
  · intro rdy
    rw [mymemFree_memrdy] at rdy
    cases rdy

theorem Called.fresh {dev : Bank → Pool} (called : Called L dev) (memx : Bank) :
    Fresh memx (dev memx) := by
  induction called generalizing memx with
  | start dev zero => exact fun _ i _ => zero memx i
  | malloc b size _ ih =>
    by_cases same : memx = b
    · subst same
      rw [Function.update_self]
      intro rdy
      rw [mymalloc_snd, mymemMalloc_memrdy] at rdy
      cases rdy
    · simpa only [Function.update_of_ne same] using ih memx
  | free b ptr _ ih =>
    by_cases same : memx = b
    · subst same
      rw [Function.update_self]
      exact (ih memx).free ptr
    · simpa only [Function.update_of_ne same] using ih memx

theorem mymemMalloc_fresh (fresh : Fresh memx p) {size : Nat} (small : size ≤ memsize memx)
    (some : size ≠ 0) :
    (∃ start, FreeRun memx p start ((size + 31) / 32) ∧
      (∀ later, start < later → ¬ FreeRun memx p later ((size + 31) / 32)) ∧
      (mymemMalloc memx p size).1 = 32 * start ∧
      (mymemMalloc memx p size).2.memmap =
        fill p.memmap start ((size + 31) / 32) ((size + 31) / 32)) ∨
    ((∀ start, ¬ FreeRun memx p start ((size + 31) / 32)) ∧
      (mymemMalloc memx p size).1 = 0xFFFFFFFF ∧
      (mymemMalloc memx p size).2.memmap = p.memmap) := by
  have bound := memsize_le memx
  have map := fresh.init
  have found := @searchRun_spec p.memmap ((size + 31) / 32) (memtblsize memx) (by omega) _ _
    (passed_top (by omega))
  rw [mymemMalloc]
  dsimp only
  rw [if_neg some, map, blocksFor_eq memx small, memblksize_eq]
  cases search : searchRun p.memmap ((size + 31) / 32) (memtblsize memx) 0 with
  | some start =>
    rw [search] at found
    obtain ⟨fit, free, highest⟩ := found
    refine .inl ⟨start, ⟨fit, free⟩, fun later above run => ?_, Nat.mul_comm start 32, rfl⟩
    exact highest later above run.1 run.2
  | none =>
    rw [search] at found
    exact .inr ⟨fun start run => found start run.1 run.2, rfl, map⟩

theorem mymemMalloc_zero (fresh : Fresh memx p) :
    (mymemMalloc memx p 0).1 = 0xFFFFFFFF ∧ (mymemMalloc memx p 0).2.memmap = p.memmap := by
  have map := fresh.init
  rw [mymemMalloc]
  dsimp only
  rw [if_pos rfl]
  exact ⟨rfl, map⟩

end Calls

/-- After any calls, `mymem_malloc` succeeds just when the size is not 0 and the map has a
free stretch for it; it takes the highest one, and leaves the map alone when it fails. -/
theorem mymem_malloc_highest (L : Layout) (dev : Bank → Pool) (called : Called L dev)
    (memx : Bank) (size : Nat) (small : size ≤ memsize memx) :
    ((mymemMalloc memx (dev memx) size).1 ≠ 0xFFFFFFFF ↔
      size ≠ 0 ∧ ∃ start, FreeRun memx (dev memx) start ((size + 31) / 32)) ∧
    ((mymemMalloc memx (dev memx) size).1 ≠ 0xFFFFFFFF →
      ∃ start, FreeRun memx (dev memx) start ((size + 31) / 32) ∧
        (∀ later, start < later → ¬ FreeRun memx (dev memx) later ((size + 31) / 32)) ∧
        (mymemMalloc memx (dev memx) size).1 = memblksize memx * start ∧
        (mymemMalloc memx (dev memx) size).2.memmap =
          fill (dev memx).memmap start ((size + 31) / 32) ((size + 31) / 32)) ∧
    ((mymemMalloc memx (dev memx) size).1 = 0xFFFFFFFF →
      (mymemMalloc memx (dev memx) size).2.memmap = (dev memx).memmap) := by
  have fresh := called.fresh memx
  have table := memtblsize_mul memx
  have bound := memsize_le memx
  by_cases empty : size = 0
  · obtain ⟨failed, map⟩ := mymemMalloc_zero fresh
    subst empty
    exact ⟨by simp [failed], fun success => absurd failed success, fun _ => map⟩
  · rcases mymemMalloc_fresh fresh small empty with
      ⟨start, run, highest, result, map⟩ | ⟨full, failed, map⟩
    · have fit := run.1
      have success : (mymemMalloc memx (dev memx) size).1 ≠ 0xFFFFFFFF := by
        rw [result]
        omega
      rw [memblksize_eq]
      exact ⟨⟨fun _ => ⟨empty, start, run⟩, fun _ => success⟩,
        fun _ => ⟨start, run, highest, result, map⟩, fun failed => absurd failed success⟩
    · refine ⟨⟨fun success => absurd failed success, ?_⟩, fun success => absurd failed success,
        fun _ => map⟩
      rintro ⟨-, start, run⟩
      exact absurd run (full start)

theorem mymem_malloc_highest_one :
    ∃ dev, Called mapLayout dev ∧
      ((mymemMalloc .sramin (dev .sramin) 100).1 ≠ 0xFFFFFFFF ↔
        100 ≠ 0 ∧ ∃ start, FreeRun .sramin (dev .sramin) start ((100 + 31) / 32)) := by
  have called := Called.free .sramin 0x20000000 (Called.malloc .sramin 50
    (Called.start (L := mapLayout) (fun _ => ⟨fun _ => 0, true⟩) (fun _ _ => rfl)))
  exact ⟨_, called, (mymem_malloc_highest _ _ called .sramin 100 (by decide)).1⟩

end BoxFirmware.Malloc
