import BoxFirmware.GetGps

/-! Calls of `Get_Gps` and the receive interrupt between their steps: one step drops
`isGetData`, one is a search, one a copy with what follows it. -/
namespace BoxFirmware.GetGps
open ByteMem GuardedRun Commit

/-- Where the task is: outside `Get_Gps`, before it drops `isGetData`, before the first
search, before the search behind `subString` for the remaining fields, before a copy, or
where C leaves the call undefined. -/
inductive Pc
  | idle
  | clear
  | first
  | search (fs : List Field) (subString : Nat)
  | copy (f : Field) (fs : List Field) (subString subStringNext : Nat)
  | fault
  deriving DecidableEq

/-- `delivered` has what each delivery left in `GPS_Buffer`, `copied` the fields that the
call, or else the last one, has stored, and `during` says that a sentence was delivered
since it began. -/
structure Calls where
  gps : St
  point1 : Nat
  pc : Pc
  delivered : List (List UInt8)
  copied : List (Field × List UInt8)
  during : Bool

inductive Label
  /-- The interrupt, with the byte if there is one. -/
  | irq (dr : Option UInt8)
  /-- `Save_Data.isUsefull = 0` by the task that calls. -/
  | reset
  /-- `Get_Gps` is called and tests `isGetData`; the stack holds some byte. -/
  | call (stack : UInt8)
  | get

def handled (dr : Option UInt8) (s : Calls) : List Write × Commit.St :=
  usart2IrqHandler dr ⟨s.gps.mem, s.point1⟩

def delivers (dr : Option UInt8) (s : Calls) : Bool := .getData ∈ (handled dr s).1

def irqStep (dr : Option UInt8) (s : Calls) : Calls :=
  let gps := { s.gps with mem := (handled dr s).2.mem }
  { s with
    gps := gps
    point1 := (handled dr s).2.point1
    delivered := if delivers dr s then s.delivered ++ [buffer gps] else s.delivered
    during := s.during || delivers dr s }

def getStep (s : Calls) : Calls :=
  match s.pc with
  | .idle => s
  | .clear => { s with gps := clearGetData s.gps, pc := .first }
  | .first =>
    match search s.gps.mem gpsBuffer with
    | some (some first) => { s with pc := .search fields first }
    | _ => { s with pc := .fault }
  | .search [] _ => { s with pc := .idle }
  | .search (f :: fs) subString =>
    match search s.gps.mem (subString + 1) with
    | none => { s with pc := .fault }
    | some none => { s with pc := .search fs (subString + 1) }
    | some (some next) => { s with pc := .copy f fs (subString + 1) next }
  | .copy f fs subString next =>
    match copyField f subString next s.gps with
    | none => { s with pc := .fault }
    | some gps =>
      { s with
        gps := gps
        copied := s.copied ++ [(f, slice s.gps.mem subString (next - subString))]
        pc := .search fs next }
  | .fault => s

def step (label : Label) (s : Calls) : Calls :=
  match label with
  | .irq dr => irqStep dr s
  | .reset =>
    match s.pc with
    | .idle => { s with gps := { s.gps with mem := Function.update s.gps.mem isUsefull 0 } }
    | _ => s
  | .call stack =>
    match s.pc with
    | .idle =>
      { s with
        gps := { s.gps with usefull := stack }
        pc := if s.gps.mem isGetData = 0 then .idle else .clear
        copied := []
        during := false }
    | _ => s
  | .get => getStep s

def start (clock : Clock) : Calls := ⟨⟨fun _ => 0, clock, 0⟩, 0, .idle, [], [], false⟩

/-- The call has searched and not yet stored its last field. -/
def Pc.parsing : Pc → Bool
  | .search (_ :: _) _ => true
  | .copy .. => true
  | _ => false

/-- The fields stored by a call are those of one delivered sentence, in their order; and
what was delivered during a call that is over is there, whole, with `isGetData` set. -/
structure Intact (s : Calls) : Prop where
  one : s.copied = [] ∨ ∃ sentence ∈ s.delivered, s.copied <+: sentenceCopies sentence
  kept : s.pc = .idle → s.during = true →
    s.gps.mem isGetData ≠ 0 ∧ s.delivered.getLast? = some (buffer s.gps)

/-- No delivery between the test of `isGetData` and its clearing, and none between the first
search and the last copy but of what is in the buffer already. -/
def Calm : Label → Calls → Prop
  | .irq dr, s => delivers dr s = true →
      s.pc ≠ .clear ∧ (s.pc.parsing = true → buffer (irqStep dr s).gps = buffer s.gps)
  | _, _ => True

instance : (label : Label) → (s : Calls) → Decidable (Calm label s)
  | .irq _, _ => inferInstanceAs (Decidable (_ → _))
  | .reset, _ => inferInstanceAs (Decidable True)
  | .call _, _ => inferInstanceAs (Decidable True)
  | .get, _ => inferInstanceAs (Decidable True)

section Interrupt

theorem handler_cases (dr : Option UInt8) (s : Commit.St) :
    (.getData ∈ (usart2IrqHandler dr s).1 ∧ (usart2IrqHandler dr s).2.mem isGetData = 1) ∨
    (.getData ∉ (usart2IrqHandler dr s).1 ∧
      ∀ a < usart2RxBuf, (usart2IrqHandler dr s).2.mem a = s.mem a) := by
  cases dr with
  | none => exact .inr ⟨by simp [usart2IrqHandler], fun _ _ => rfl⟩
  | some res =>
    have quiet : ∀ i, (receive res s).1 = [.rxByte i] → (.getData ∉ (receive res s).1 ∧
        ∀ a < usart2RxBuf, (receive res s).2.mem a = s.mem a) := by
      intro i writes
      refine ⟨by simp [writes], fun a front => receive_frame res s ?_⟩
      rw [writes, List.forall_mem_singleton]
      simp only [Write.range]
      omega
    obtain ⟨-, eq⟩ | ⟨-, -, eq⟩ | ⟨-, -, eq⟩ := receive_cases res s
    · exact .inr (quiet _ (by rw [eq]))
    · refine .inl ⟨by simp [usart2IrqHandler, eq], ?_⟩
      have front : isGetData < usart2RxBuf := by decide
      rw [usart2IrqHandler, eq, clamp_mem, deliver]
      dsimp only
      rw [store_outside _ _ _ _ (.inl front), Function.update_self]
    · exact .inr (quiet _ (by rw [eq]))

end Interrupt

section Invariant

def Progress (bytes : List UInt8) (copied : List (Field × List UInt8)) : Pc → Prop
  | .search fs p => p < gpsBufferLength ∧
      sentenceCopies bytes = copied ++ copies fs (bytes.drop p)
  | .copy f fs p next => p ≤ next ∧ next < gpsBufferLength ∧ sentenceCopies bytes = copied ++
      if next - p ≤ f.size then (f, (bytes.drop p).take (next - p)) :: copies fs (bytes.drop next)
      else []
  | _ => copied <+: sentenceCopies bytes

structure Inv (s : Calls) : Prop where
  flag : s.gps.mem isGetData ≠ 0 → s.delivered ≠ []
  last : ∀ sentence, s.delivered.getLast? = some sentence → buffer s.gps = sentence
  fresh : s.pc = .clear ∨ s.pc = .first → s.copied = []
  quiet : s.pc = .clear → s.during = false
  kept : s.during = true → s.gps.mem isGetData ≠ 0
  source : (s.pc = .idle ∧ s.copied = []) ∨ ∃ sentence ∈ s.delivered,
    (s.pc.parsing = true → sentence = buffer s.gps) ∧ Progress sentence s.copied s.pc

theorem progress_prefix {bytes : List UInt8} {copied : List (Field × List UInt8)} {pc : Pc}
    (progress : Progress bytes copied pc) : copied <+: sentenceCopies bytes := by
  cases pc with
  | search fs p => exact ⟨_, progress.2.symm⟩
  | copy f fs p next => exact ⟨_, progress.2.2.symm⟩
  | _ => exact progress

theorem inv_intact {s : Calls} (inv : Inv s) : Intact s := by
  constructor
  · obtain ⟨-, none⟩ | ⟨sentence, member, -, progress⟩ := inv.source
    · exact .inl none
    · exact .inr ⟨sentence, member, progress_prefix progress⟩
  · intro _ during
    have set := inv.kept during
    refine ⟨set, ?_⟩
    cases last : s.delivered.getLast? with
    | none => exact absurd (List.getLast?_eq_none_iff.mp last) (inv.flag set)
    | some sentence => rw [inv.last sentence last]

theorem inv_start (clock : Clock) : Inv (start clock) :=
  ⟨fun set => absurd rfl set, nofun, fun _ => rfl, nofun, nofun, .inl ⟨rfl, rfl⟩⟩

theorem buffer_congr {g g' : St} (same : ∀ a < gpsBufferLength, g'.mem a = g.mem a) :
    buffer g' = buffer g := by
  have first : gpsBuffer = 0 := rfl
  exact slice_congr (fun i inside => same _ (by omega))

theorem inv_irq {dr : Option UInt8} {s : Calls} (calm : Calm (.irq dr) s) (inv : Inv s) :
    Inv (irqStep dr s) := by
  obtain ⟨now, set⟩ | ⟨not, front⟩ := handler_cases dr ⟨s.gps.mem, s.point1⟩
  · have now : delivers dr s = true := decide_eq_true now
    obtain ⟨later, same⟩ := calm now
    have grown : (irqStep dr s).delivered = s.delivered ++ [buffer (irqStep dr s).gps] := by
      rw [irqStep, if_pos now]
    have flag : (irqStep dr s).gps.mem isGetData ≠ 0 := by
      rw [show (irqStep dr s).gps.mem isGetData = 1 from set]
      decide
    refine ⟨fun _ => by simp [grown], fun sentence last => ?_, inv.fresh,
      fun clear => absurd clear later, fun _ => flag, inv.source.imp id ?_⟩
    · rw [grown, List.getLast?_concat] at last
      exact Option.some.inj last
    · rintro ⟨sentence, member, current, progress⟩
      refine ⟨sentence, ?_, fun parsing => ?_, progress⟩
      · rw [grown]
        exact List.mem_append_left _ member
      · rw [same parsing]
        exact current parsing
  · have not : delivers dr s = false := decide_eq_false not
    have none : (irqStep dr s).delivered = s.delivered := by
      simp [irqStep, not]
    have during : (irqStep dr s).during = s.during := by
      simp [irqStep, not]
    have flag : (irqStep dr s).gps.mem isGetData = s.gps.mem isGetData := front _ (by decide)
    have same : buffer (irqStep dr s).gps = buffer s.gps :=
      buffer_congr (fun a inside => front a (Nat.lt_trans inside (by decide)))
    refine ⟨?_, ?_, inv.fresh, ?_, ?_, ?_⟩
    · rw [flag, none]
      exact inv.flag
    · rw [none, same]
      exact inv.last
    · rw [during]
      exact inv.quiet
    · rw [during, flag]
      exact inv.kept
    · rw [none, same]
      exact inv.source

theorem ahead_eq (g : St) (p : Nat) : ahead g p = (buffer g).drop p := by
  have first : gpsBuffer = 0 := rfl
  rw [ahead, buffer, slice_drop, first, Nat.zero_add]

theorem progress_search {g : St} {f : Field} {fs : List Field} {p : Nat}
    {copied : List (Field × List UInt8)}
    (progress : Progress (buffer g) copied (.search (f :: fs) p)) :
    Progress (buffer g) copied (match search g.mem (p + 1) with
      | none => .fault
      | some none => .search fs (p + 1)
      | some (some next) => .copy f fs (p + 1) next) := by
  obtain ⟨inside, all⟩ := progress
  have found : search g.mem (p + 1) =
      (strstrComma (ahead g (p + 1))).map (Option.map (p + 1 + ·)) := rfl
  rw [← ahead_eq, ahead_tail g inside] at all
  rw [found]
  obtain ⟨field, behind, noComma, noZero, whole⟩ | ⟨field, behind, noComma, noZero, whole⟩ |
    ⟨noComma, noZero⟩ := bytes_cases (ahead g (p + 1))
  · obtain ⟨room, copied', next⟩ := ahead_comma whole
    have taken : ((buffer g).drop (p + 1)).take field.length = field := by
      rw [← ahead_eq, whole, List.take_left]
    rw [whole, copies_closed noComma noZero] at all
    rw [whole, strstrComma_closed noComma noZero]
    refine ⟨Nat.le_add_right _ _, room, ?_⟩
    rw [Nat.add_sub_cancel_left, taken, ← ahead_eq, next]
    exact all
  · have count : (ahead g (p + 1)).length = gpsBufferLength - (p + 1) := slice_length _ _ _
    rw [whole, List.length_append, List.length_cons] at count
    rw [whole, copies_missing noComma noZero, ← whole, ahead_eq] at all
    rw [whole, strstrComma_missing noComma noZero]
    exact ⟨by omega, all⟩
  · rw [strstrComma_leaves noComma noZero]
    exact ⟨_, all.symm⟩

theorem inv_moved {s t : Calls} (inv : Inv s) (front : ∀ a ≤ isGetData, t.gps.mem a = s.gps.mem a)
    (delivered : t.delivered = s.delivered) (during : t.during = true → s.during = true)
    (fresh : t.pc = .clear ∨ t.pc = .first → t.copied = [])
    (quiet : t.pc = .clear → t.during = false)
    (source : (t.pc = .idle ∧ t.copied = []) ∨ ∃ sentence ∈ s.delivered,
      (t.pc.parsing = true → sentence = buffer s.gps) ∧ Progress sentence t.copied t.pc) :
    Inv t := by
  have room : isGetData = gpsBufferLength := rfl
  have same : buffer t.gps = buffer s.gps := buffer_congr (fun a inside => front a (by omega))
  have flag := front isGetData (Nat.le_refl _)
  refine ⟨?_, ?_, fresh, quiet, fun now => ?_, ?_⟩
  · rw [flag, delivered]
    exact inv.flag
  · rw [delivered, same]
    exact inv.last
  · rw [flag]
    exact inv.kept (during now)
  · rw [delivered, same]
    exact source

/-- The sentence that is being parsed is the one in the buffer. -/
theorem Inv.parsed {s : Calls} (inv : Inv s) (parsing : s.pc.parsing = true) :
    buffer s.gps ∈ s.delivered ∧ Progress (buffer s.gps) s.copied s.pc := by
  obtain ⟨outside, -⟩ | ⟨sentence, member, current, progress⟩ := inv.source
  · rw [outside] at parsing
    cases parsing
  · rw [← current parsing]
    exact ⟨member, progress⟩

theorem inv_clear {s : Calls} (inv : Inv s) (at_ : s.pc = .clear) :
    Inv { s with gps := clearGetData s.gps, pc := .first } := by
  have cleared : (clearGetData s.gps).mem isGetData = 0 := by simp [clearGetData]
  have same : buffer (clearGetData s.gps) = buffer s.gps :=
    buffer_congr (fun a inside => Function.update_of_ne (Nat.ne_of_lt inside) _ _)
  refine ⟨fun set => absurd cleared set, ?_, fun _ => inv.fresh (.inl at_), nofun,
    fun during => ?_, .inr ?_⟩
  · rw [same]
    exact inv.last
  · exact absurd (inv.quiet at_) (by simpa using during)
  · obtain ⟨outside, -⟩ | ⟨sentence, member, -, progress⟩ := inv.source
    · rw [at_] at outside
      cases outside
    · rw [at_] at progress
      exact ⟨sentence, member, nofun, progress⟩

theorem inv_first {s : Calls} (inv : Inv s) (at_ : s.pc = .first) :
    Inv (match search s.gps.mem gpsBuffer with
      | some (some first) => { s with pc := .search fields first }
      | _ => { s with pc := .fault }) := by
  have none := inv.fresh (.inr at_)
  have member : buffer s.gps ∈ s.delivered := by
    obtain ⟨outside, -⟩ | ⟨sentence, member, -⟩ := inv.source
    · rw [at_] at outside
      cases outside
    · have some := List.ne_nil_of_mem member
      rw [inv.last _ (List.getLast?_eq_some_getLast some)]
      exact List.getLast_mem some
  have found : search s.gps.mem gpsBuffer =
      (strstrComma (buffer s.gps)).map (Option.map (gpsBuffer + ·)) := rfl
  have fault : Inv { s with pc := .fault } :=
    inv_moved inv (fun _ _ => rfl) rfl id (by simp) nofun
      (.inr ⟨_, member, nofun, by simp [Progress, none]⟩)
  rw [found]
  obtain ⟨start, behind, noComma, noZero, whole⟩ | ⟨start, behind, noComma, noZero, whole⟩ |
    ⟨noComma, noZero⟩ := bytes_cases (buffer s.gps)
  · have count : (buffer s.gps).length = gpsBufferLength := slice_length _ _ _
    have first : gpsBuffer = 0 := rfl
    rw [whole, List.length_append, List.length_cons] at count
    rw [whole, strstrComma_closed noComma noZero]
    refine inv_moved inv (fun _ _ => rfl) rfl id (by simp) nofun
      (.inr ⟨_, member, fun _ => rfl, ?_, ?_⟩)
    · show gpsBuffer + start.length < gpsBufferLength
      omega
    · show sentenceCopies (buffer s.gps) = s.copied ++ _
      have place : (fun x => 0 + x) start.length = start.length := Nat.zero_add _
      rw [none, List.nil_append, first, place, whole, List.drop_left, sentenceCopies,
        dropWhile_comma noComma]
  · rw [whole, strstrComma_missing noComma noZero]
    exact fault
  · rw [strstrComma_leaves noComma noZero]
    exact fault

theorem inv_copy {s : Calls} {f : Field} {fs : List Field} {p next : Nat} (inv : Inv s)
    (at_ : s.pc = .copy f fs p next) : Inv (match copyField f p next s.gps with
      | none => { s with pc := .fault }
      | some gps =>
        { s with
          gps := gps
          copied := s.copied ++ [(f, slice s.gps.mem p (next - p))]
          pc := .search fs next }) := by
  obtain ⟨member, progress⟩ := inv.parsed (by rw [at_]; rfl)
  rw [at_] at progress
  obtain ⟨order, inside, all⟩ := progress
  rw [copyField]
  by_cases fits : next - p ≤ f.size
  · have bytes : ((buffer s.gps).drop p).take (next - p) = slice s.gps.mem p (next - p) := by
      rw [← ahead_eq, ahead, slice_take _ _ (by omega)]
    rw [if_pos fits, bytes] at all
    rw [if_pos fits]
    refine inv_moved inv (fun a front => put_front f _ s.gps front) rfl id (by simp) (by simp)
      (.inr ⟨_, member, fun _ => rfl, inside, ?_⟩)
    rw [all, List.append_assoc]
    rfl
  · rw [if_neg fits] at all ⊢
    exact inv_moved inv (fun _ _ => rfl) rfl id (by simp) (by simp)
      (.inr ⟨_, member, by simp [Pc.parsing], _, all.symm⟩)

theorem inv_get {s : Calls} (inv : Inv s) : Inv (getStep s) := by
  unfold getStep
  cases at_ : s.pc with
  | idle => exact inv
  | clear => exact inv_clear inv at_
  | first => exact inv_first inv at_
  | search fs p =>
    cases fs with
    | nil =>
      obtain ⟨outside, -⟩ | ⟨sentence, member, -, progress⟩ := inv.source
      · rw [at_] at outside
        cases outside
      · exact inv_moved inv (fun _ _ => rfl) rfl id (by simp) nofun
          (.inr ⟨sentence, member, nofun, progress_prefix progress⟩)
    | cons f fs =>
      obtain ⟨member, progress⟩ := inv.parsed (by rw [at_]; rfl)
      rw [at_] at progress
      have further := progress_search progress
      dsimp only
      split at further
      · exact inv_moved inv (fun _ _ => rfl) rfl id (by simp) nofun (.inr ⟨_, member, nofun, further⟩)
      · exact inv_moved inv (fun _ _ => rfl) rfl id (by simp) nofun
          (.inr ⟨_, member, fun _ => rfl, further⟩)
      · exact inv_moved inv (fun _ _ => rfl) rfl id (by simp) nofun
          (.inr ⟨_, member, fun _ => rfl, further⟩)
  | copy f fs p next => exact inv_copy inv at_
  | fault => exact inv

theorem inv_step {label : Label} {s : Calls} (calm : Calm label s) (inv : Inv s) :
    Inv (step label s) := by
  cases label with
  | irq dr => exact inv_irq calm inv
  | reset =>
    simp only [step]
    cases at_ : s.pc with
    | idle =>
      have source := inv.source
      rw [at_] at source
      refine inv_moved inv (fun a front => ?_) rfl id (by simp) nofun source
      have place : isGetData = 80 ∧ isUsefull = 120 := ⟨rfl, rfl⟩
      exact Function.update_of_ne (by omega) _ _
    | _ => exact inv
  | call stack =>
    simp only [step]
    cases at_ : s.pc with
    | idle =>
      refine inv_moved inv (fun _ _ => rfl) rfl nofun (fun _ => rfl) (fun _ => rfl) ?_
      by_cases none : s.gps.mem isGetData = 0
      · exact .inl ⟨by rw [if_pos none], rfl⟩
      · obtain ⟨sentence, member⟩ := List.exists_mem_of_ne_nil _ (inv.flag none)
        refine .inr ⟨sentence, member, ?_, ?_⟩
        · rw [if_neg none]
          nofun
        · rw [if_neg none]
          exact List.nil_prefix
    | _ => exact inv
  | get => exact inv_get inv

/-- In a run whose deliveries keep out of the way of the calls, every call stores the fields
of one delivered sentence, and none delivered during a call is lost. -/
theorem get_gps_calls (clock : Clock) (labels : List Label)
    (calm : Along step Calm labels (start clock)) :
    ∀ pre, pre <+: labels → Intact (run step pre (start clock)) := by
  intro pre shorter
  apply inv_intact
  exact run_invariant (fun _ _ => inv_step) (along_shorter shorter calm) (inv_start clock)

end Invariant

section Alone

def Returns (result : Option St) (s : Calls) : Prop :=
  match result with
  | some gps => s.pc = .idle ∧ s.gps = gps
  | none => s.pc = .fault

theorem loop_gets (fs : List Field) (p : Nat) (s : Calls) (at_ : s.pc = .search fs p) :
    Eventually step .get (Returns (loop fs p s.gps)) s := by
  induction fs generalizing p s with
  | nil =>
    have once : step .get s = { s with pc := .idle } := by simp only [step, getStep, at_]
    apply eventually_next once
    apply eventually_now
    exact ⟨rfl, rfl⟩
  | cons f fs ih =>
    rw [loop]
    cases found : search s.gps.mem (p + 1) with
    | none =>
      have once : step .get s = { s with pc := .fault } := by simp only [step, getStep, at_, found]
      apply eventually_next once
      exact eventually_now rfl
    | some comma =>
      cases comma with
      | none =>
        have once : step .get s = { s with pc := .search fs (p + 1) } := by
          simp only [step, getStep, at_, found]
        apply eventually_next once
        exact ih (p + 1) { s with pc := .search fs (p + 1) } rfl
      | some next =>
        have once : step .get s = { s with pc := .copy f fs (p + 1) next } := by
          simp only [step, getStep, at_, found]
        apply eventually_next once
        dsimp only
        cases copied : copyField f (p + 1) next s.gps with
        | none =>
          have twice : step .get { s with pc := .copy f fs (p + 1) next } =
              { s with pc := .fault } := by
            simp only [step, getStep, copied]
          apply eventually_next twice
          exact eventually_now rfl
        | some gps =>
          have twice : step .get { s with pc := .copy f fs (p + 1) next } = { s with
              gps := gps
              copied := s.copied ++ [(f, slice s.gps.mem (p + 1) (next - (p + 1)))]
              pc := .search fs next } := by
            simp only [step, getStep, copied]
          apply eventually_next twice
          exact ih next { s with
            gps := gps
            copied := s.copied ++ [(f, slice s.gps.mem (p + 1) (next - (p + 1)))]
            pc := .search fs next } rfl

theorem call_gets (stack : UInt8) (s : Calls) (outside : s.pc = .idle) :
    Eventually step .get (Returns (getGps { s.gps with usefull := stack })) (step (.call stack) s) := by
  rw [getGps]
  by_cases none : s.gps.mem isGetData = 0
  · rw [if_pos none]
    apply eventually_now
    simp [Returns, step, outside, none]
  · rw [if_neg none]
    have cleared : step .get (step (.call stack) s) =
        { s with
          gps := clearGetData { s.gps with usefull := stack }
          pc := .first
          copied := []
          during := false } := by
      simp only [step, outside, none, if_false, getStep]
    apply eventually_next cleared
    generalize clearGetData { s.gps with usefull := stack } = gps
    dsimp only
    split
    · rename_i first found
      have begun : step .get { s with gps := gps, pc := .first, copied := [], during := false } =
          { s with gps := gps, pc := .search fields first, copied := [], during := false } := by
        simp only [step, getStep, found]
      apply eventually_next begun
      exact loop_gets fields first
        { s with gps := gps, pc := .search fields first, copied := [], during := false } rfl
    · apply eventually_step
      apply eventually_now
      simp only [step, getStep, Returns]

end Alone

section Examples

def feed (sentence : String) : List Label := (CText.ascii sentence).map (fun b => .irq (some b))

/-- A call during which the next sentence comes: it begins behind the clearing of `isGetData` and
ends behind the last copy. -/
def lateSentence : List Label :=
  feed "$GPRMC,1,A,\n" ++ [.call 0, .get] ++ feed "$GPR" ++ List.replicate 3 .get ++ feed "MC,2,V" ++
    List.replicate 9 .get ++ feed ",\n" ++ [.get]

theorem get_gps_calls_late :
    (run step lateSentence (start ⟨0, 0, 0, 0, 0, 0⟩)).during = true ∧
      Intact (run step lateSentence (start ⟨0, 0, 0, 0, 0, 0⟩)) :=
  ⟨by decide +kernel, get_gps_calls ⟨0, 0, 0, 0, 0, 0⟩ lateSentence (by decide +kernel) lateSentence
    (List.prefix_refl _)⟩

def tornCall : List Label :=
  feed "$GPRMC,11,A,\n" ++ [.call 0, .get, .get, .get] ++ feed "$GPRMC,2,V,3\n" ++ [.get]

/-- A second sentence before `isGetData` is dropped. -/
def lostCall : List Label :=
  feed "$GPRMC,1,A,\n" ++ .call 0 :: feed "$GPRMC,2,V,\n" ++ List.replicate 14 .get

/-- The time stored is that of neither sentence; and the one delivered during a call is there
without its flag. -/
theorem get_gps_torn :
    ¬ Intact (run step tornCall (start ⟨0, 0, 0, 0, 0, 0⟩)) ∧
      ¬ Intact (run step lostCall (start ⟨0, 0, 0, 0, 0, 0⟩)) := by
  have torn : (run step tornCall (start ⟨0, 0, 0, 0, 0, 0⟩)).copied =
      [(.utcTime, CText.ascii "2,")] ∧
      ∀ sentence ∈ (run step tornCall (start ⟨0, 0, 0, 0, 0, 0⟩)).delivered,
        ¬ [(.utcTime, CText.ascii "2,")] <+: sentenceCopies sentence := by decide +kernel
  have lost : (run step lostCall (start ⟨0, 0, 0, 0, 0, 0⟩)).pc = .idle ∧
      (run step lostCall (start ⟨0, 0, 0, 0, 0, 0⟩)).during = true ∧
      (run step lostCall (start ⟨0, 0, 0, 0, 0, 0⟩)).gps.mem isGetData = 0 := by decide +kernel
  constructor
  · rintro ⟨none | ⟨sentence, member, copies⟩, -⟩
    · rw [torn.1] at none
      cases none
    · rw [torn.1] at copies
      exact torn.2 sentence member copies
  · rintro ⟨-, kept⟩
    exact (kept lost.1 lost.2.1).1 lost.2.2

end Examples

end BoxFirmware.GetGps
