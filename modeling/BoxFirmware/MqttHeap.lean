import BoxFirmware.MqttTurn

/-! The heap blocks of `mqtt_thread`. The blocks of the reports and of `info` are freed where
they were taken. The one of a PUBLISH is lost when `MQTTDeserialize_publish` moves
`payload_in` into the stack buffer, whose address is then freed in its place, and the mail
to be sent is a static array that is freed as well. -/
namespace BoxFirmware.MqttHeap
open ByteMem CText GuardedRun Malloc MqttPacket MqttThread

/-- The blocks that are live behind some events, or none when a pointer is freed that is
neither `NULL` nor a live block. -/
def heapScan : (live : List Nat) → List Event → Option (List Nat)
  | live, [] => some live
  | live, .malloc _ ptr :: es => heapScan (if ptr = 0 then live else ptr :: live) es
  | live, .free ptr :: es =>
    if ptr = 0 then heapScan live es
    else if ptr ∈ live then heapScan (live.erase ptr) es
    else none
  | live, _ :: es => heapScan live es

/-- Every block is freed once, and nothing else is. -/
def Balanced (es : List Event) : Prop := heapScan [] es = some []

instance (es : List Event) : Decidable (Balanced es) := inferInstanceAs (Decidable (_ = _))

def isHeap : Event → Bool
  | .malloc _ _ => true
  | .free _ => true
  | _ => false

theorem heapScan_append (live : List Nat) (es fs : List Event) :
    heapScan live (es ++ fs) = (heapScan live es).bind (fun left => heapScan left fs) := by
  induction es generalizing live with
  | nil => rfl
  | cons e es ih =>
    cases e with
    | malloc size ptr => exact ih _
    | free ptr =>
      simp only [List.cons_append, heapScan]
      split_ifs
      · exact ih _
      · exact ih _
      · rfl
    | _ => exact ih live

theorem heapScan_quiet {es : List Event} (quiet : ∀ e ∈ es, isHeap e = false) (live : List Nat) :
    heapScan live es = some live := by
  induction es with
  | nil => rfl
  | cons e es ih =>
    have rest := ih (fun f hf => quiet f (by simp [hf]))
    have head := quiet e (by simp)
    cases e <;> first
      | exact rest
      | cases head

theorem Balanced.append {es fs : List Event} (first : Balanced es) (second : Balanced fs) :
    Balanced (es ++ fs) := by
  rw [Balanced, heapScan_append, first]
  exact second

theorem balanced_block (size ptr : Nat) {es : List Event} (quiet : ∀ e ∈ es, isHeap e = false) :
    Balanced (.malloc size ptr :: es ++ [.free ptr]) := by
  rw [Balanced, heapScan_append]
  simp only [heapScan, heapScan_quiet quiet, Option.bind_some]
  split <;> simp

/-- A stretch of the thread that gives back what it takes. -/
structure Returned (st st' : St) : Prop where
  heap : st'.heap = st.heap
  log : ∃ es, st'.log = st.log ++ es ∧ Balanced es

theorem Returned.refl (st : St) : Returned st st := ⟨rfl, [], by simp, rfl⟩

theorem Returned.trans {st mid st' : St} (first : Returned st mid) (second : Returned mid st') :
    Returned st st' := by
  obtain ⟨es, log, balanced⟩ := first.log
  obtain ⟨fs, log', balanced'⟩ := second.log
  refine ⟨second.heap.trans first.heap, es ++ fs, ?_, balanced.append balanced'⟩
  rw [log', log, List.append_assoc]

theorem returned_quiet {st st' : St} (heap : st'.heap = st.heap) (es : List Event)
    (log : st'.log = st.log ++ es) (quiet : ∀ e ∈ es, isHeap e = false) : Returned st st' :=
  ⟨heap, es, log, heapScan_quiet quiet []⟩

theorem publishEvent_quiet (sock : Int) (msgid retained : Nat) (rc : Int) (payload : List UInt8) :
    ∀ e ∈ [publishEvent sock msgid retained rc payload], isHeap e = false := by
  simp [publishEvent, isHeap]

theorem returned_block {b : Board} {st st' : St} {size : Nat} (ready : st.heap.memrdy = true)
    (small : size ≤ memsize .sramin)
    (heap : st'.heap = myfree b.layout .sramin (mallocSramin b size st).2.heap (mallocSramin b size st).1)
    {es : List Event} (quiet : ∀ e ∈ es, isHeap e = false)
    (log : st'.log = st.log ++ (.malloc size (mallocSramin b size st).1 :: es ++
      [.free (mallocSramin b size st).1])) : Returned st st' := by
  refine ⟨heap.trans ?_, _, log, balanced_block size _ quiet⟩
  exact myfree_mymalloc b.layout .sramin st.heap size ready small

section Reports

variable {b : Board} {env : Env} {st : St}

theorem eventReport_returned (b : Board) (env : Env) {st : St} (site : Site) (message : String) (ready : st.heap.memrdy = true) :
    Returned st (eventReport b env site message st) := by
  refine returned_block (b := b) ready (by decide) ?_ (publishEvent_quiet _ _ _ _ _)
    (eventReport_log b env site message st)
  simp only [eventReport, freeSramin, sendPublish, sendPacket, St.emit]

theorem doorReport_returned (b : Board) (env : Env) {st : St} (ready : st.heap.memrdy = true) :
    Returned st (doorReport b env st) := by
  unfold doorReport
  split
  · have block := eventReport_returned b env .door "open the door" ready
    exact ⟨block.heap, block.log⟩
  · exact Returned.refl st

theorem fanReport_returned (b : Board) (env : Env) {st : St} (ready : st.heap.memrdy = true) :
    Returned st (fanReport b env st) := by
  unfold fanReport
  split
  · have block := eventReport_returned b env .fan "fan is not work" ready
    exact ⟨block.heap, block.log⟩
  · exact Returned.refl st

theorem initReport_returned (b : Board) (env : Env) {st : St} (ready : st.heap.memrdy = true) :
    Returned st (initReport b env st) := by
  cases first : st.ti with
  | false =>
    rw [initReport, first, if_neg (by simp)]
    exact Returned.refl st
  | true =>
    refine returned_block (b := b) ready (by decide) ?_ (publishEvent_quiet _ _ _ _ _)
      (initReport_log b env st first)
    simp only [initReport, first, if_true, freeSramin, sendPublish, sendPacket, St.emit]

def polls (env : Env) (st : St) : Prop :=
  st.connectFlag = true ∧ env.sendNow - st.sendtick ≥ 10 * 200

instance (env : Env) (st : St) : Decidable (polls env st) := inferInstanceAs (Decidable (_ ∧ _))

theorem timedReports_returned (ready : st.heap.memrdy = true) (noMail : polls env st → env.mail = none) :
    Returned st (timedReports b env st) := by
  unfold timedReports
  split
  · rename_i due
    let shown := { st.emit [.uart (ascii "displaynew\r\n")] with sendtick := env.sendSet }
    have display : Returned st shown :=
      returned_quiet rfl [.uart (ascii "displaynew\r\n")] rfl (by simp [isHeap])
    have door := display.trans (doorReport_returned b env ready)
    have fan := door.trans (fanReport_returned b env (by rw [door.heap]; exact ready))
    have init := fan.trans (initReport_returned b env (by rw [fan.heap]; exact ready))
    simp only [mailReport, noMail due]
    exact init
  · exact Returned.refl st

theorem beforeSwitch_buf (noMail : polls env st → env.mail = none) (reported : reportCount env st ≠ 0) :
    (beforeSwitch b env st).buf = zeroBuf := by
  have due : polls env st := by
    by_contra early
    exact reported (if_neg early)
  have none := noMail due
  have some : blanks env st = true := by
    by_contra blank
    rw [reportCount_blanks due (Bool.eq_false_iff.mpr blank), none] at reported
    exact reported rfl
  rw [beforeSwitch_due b due]
  simp only [mailReport, none]
  rw [blockReports_buf, if_pos some]

end Reports

section Switch

variable {b : Board} {env : Env} {now : St}

/-- A PUBLISH that leaves `payload_in` on its block. -/
theorem publishCase_returned (ready : now.heap.memrdy = true) (running : now.halted = false)
    (spared : (deserializePublish env now).payload = none)
    (goes : (publishCase b env now).halted = false) : Returned now (publishCase b env now) := by
  have stays : has (publishText b env now) "reset" = false := by
    cases resets : has (publishText b env now) "reset" with
    | false => rfl
    | true =>
      rw [publishCase_reset b env now resets] at goes
      cases goes
  have block : payloadIn b env now = (mallocSramin b 125 now).1 := by
    rw [payloadIn, spared]
    rfl
  have quiet : ∀ e ∈ commandEvents (publishText b env now) now.usartsendbuf, isHeap e = false := by
    intro e he
    have kind := commandEvents_kind he
    cases e <;> first | rfl | exact kind.elim
  have ack : ∀ e ∈ pubackEvents env now.mysock (deserializePublish env now), isHeap e = false := by
    unfold pubackEvents
    split <;> simp [isHeap]
  refine ⟨?_, _, publishCase_log b env now running, ?_⟩
  · rw [publishCase_eq b env now running stays, block]
    exact myfree_mymalloc b.layout .sramin now.heap 125 ready (by decide)
  · rw [stays, if_neg (by simp), block]
    have balanced := (balanced_block 125 (mallocSramin b 125 now).1 quiet).append
      (heapScan_quiet ack [])
    simpa [payloadBlock] using balanced

theorem infoCase_returned (ready : now.heap.memrdy = true) : Returned now (infoCase b env now) := by
  refine returned_block (b := b) ready (by decide) ?_ (publishEvent_quiet _ _ _ _ _)
    (infoCase_log b env now)
  simp only [infoCase, freeSramin, sendPublish, sendPacket, St.emit]

theorem dispatch_returned (ready : now.heap.memrdy = true) (running : now.halted = false)
    (spared : now.msgtypes = msgPublish → (deserializePublish env now).payload = none)
    (goes : (dispatch b env now).halted = false) : Returned now (dispatch b env now) := by
  by_cases publish : now.msgtypes = msgPublish
  · rw [dispatch_publish publish] at goes ⊢
    exact publishCase_returned ready running (spared publish) goes
  · unfold dispatch
    split
    case h_1 => exact returned_quiet rfl _ (connectCase_log b env now) (by simp [isHeap])
    case h_2 =>
      refine returned_quiet ?_ [] (by rw [connackCase_log, List.append_nil]) (by simp)
      unfold connackCase
      dsimp only
      split <;> rfl
    case h_3 type => exact absurd type publish
    case h_6 => exact returned_quiet rfl _ (pubrelCase_log env now) (by simp [isHeap])
    case h_8 =>
      refine returned_quiet ?_ _ (subscribeCase_log b env now) (by simp [isHeap])
      unfold subscribeCase
      dsimp only
      split_ifs <;> rfl
    case h_10 =>
      refine returned_quiet ?_ _ (pingreqCase_log env now) (by split <;> simp [isHeap])
      rw [pingreqCase_eq]
      split <;> rfl
    case h_12 => exact infoCase_returned ready
    case h_13 => exact Returned.refl now
    all_goals exact returned_quiet rfl [] (List.append_nil _).symm (by simp)

end Switch

/-- No mail is there when the turn looks for it, and a PUBLISH that reaches the switch is
not one that `MQTTDeserialize_publish` reads up to its payload. -/
def Spared (_ : Board) (_ : List Round) (env : Env) (st : St) : Prop :=
  (polls env st → env.mail = none) ∧
    (st.msgtypes = msgPublish → reportCount env st = 0 → (deserializePublish env st).payload = none)

instance (b : Board) (past : List Round) (env : Env) (st : St) : Decidable (Spared b past env st) :=
  inferInstanceAs (Decidable (_ ∧ _))

/-- The turn does not reset the processor. -/
def Completed (r : Round) : Prop := Event.reset ∉ r.answer

instance (r : Round) : Decidable (Completed r) := inferInstanceAs (Decidable (_ ∉ _))

theorem deserializePublish_zero (env : Env) {st : St} (empty : st.buf = zeroBuf) :
    (deserializePublish env st).payload = none := by
  have head : bufMem env st 0 = 0 := by
    rw [bufMem, empty]
    rfl
  unfold deserializePublish mqttDeserializePublish
  rw [head, if_pos (by decide)]

theorem spared_atSwitch {b : Board} {past : List Round} {env : Env} {st : St}
    (spared : Spared b past env st) (type : (atSwitch b env st).msgtypes = msgPublish) :
    (deserializePublish env (atSwitch b env st)).payload = none := by
  by_cases idle : reportCount env st = 0
  · have core := atSwitch_core b env st
    have own : st.msgtypes = msgPublish := by
      rw [atSwitch_msgtypes, switchOn] at type
      split at type
      · cases type
      · exact type
    have dup : (atSwitch b env st).dup = st.dup := congrArg Core.dup core
    have qos : (atSwitch b env st).qos = st.qos := congrArg Core.qos core
    have retained : (atSwitch b env st).retained = st.retained := congrArg Core.retained core
    have msgid : (atSwitch b env st).msgid = st.msgid := congrArg Core.msgid core
    have buf : (atSwitch b env st).buf = st.buf := (beforeSwitch_idle b env st idle).1
    have payload := spared.2 own idle
    rw [deserializePublish, bufMem] at payload ⊢
    rwa [dup, qos, retained, msgid, buf]
  · exact deserializePublish_zero env (beforeSwitch_buf spared.1 idle)

theorem dispatch_reset {b : Board} {env : Env} {now : St} (running : now.halted = false)
    (halts : (dispatch b env now).halted = true) : .reset ∈ (dispatch b env now).log := by
  by_cases publish : now.msgtypes = msgPublish
  · rw [dispatch_publish publish] at halts ⊢
    rw [publishCase_log b env now running]
    cases resets : has (publishText b env now) "reset" with
    | false =>
      rw [publishCase_eq b env now running resets] at halts
      exact absurd halts (by simp [takeVars, running])
    | true => simp [commandEvents, resets]
  · have same : (dispatch b env now).halted = now.halted :=
      congrArg Inbound.halted (dispatch_inbound b env now publish)
    rw [same, running] at halts
    cases halts

theorem turn_returned {b : Board} {past : List Round} {env : Env} {st : St}
    (ready : st.heap.memrdy = true) (running : st.halted = false) (spared : Spared b past env st)
    (goes : (afterSwitch b env st).halted = false) :
    (afterSwitch b env st).heap = st.heap ∧
      Balanced ((beforeSwitch b env st).log ++ (afterSwitch b env st).log) := by
  obtain ⟨-, -, -, tick, -, heap, log⟩ := wake_flags env st
  have before : Returned (wake env st) (beforeSwitch b env st) :=
    timedReports_returned (by rw [heap]; exact ready)
      (fun due => spared.1 (by rw [polls, wake_connectFlag, tick] at due; exact due))
  have same : (atSwitch b env st).heap = st.heap := before.heap.trans heap
  have after : Returned (atSwitch b env st) (afterSwitch b env st) :=
    dispatch_returned (by rw [same]; exact ready)
      (atSwitch_running b env running) (spared_atSwitch spared) goes
  obtain ⟨es, timed, reports⟩ := before.log
  obtain ⟨fs, answer, switched⟩ := after.log
  refine ⟨after.heap.trans same, ?_⟩
  rw [timed, log, answer]
  exact reports.append switched

theorem inv_step {b : Board} {s : Start} (ready : s.heap.memrdy = true) (past : List Round)
    (env : Env) (st : St) (spared : Spared b past env st)
    (inv : st.halted = false → st.heap = s.heap) :
    ((iteration b env st).2.halted = false → (iteration b env st).2.heap = s.heap) ∧
      (Completed (iteration b env st).1 →
        Balanced ((iteration b env st).1.timed ++ (iteration b env st).1.answer)) := by
  cases running : st.halted with
  | true =>
    rw [iteration_stopped b env running]
    exact ⟨fun goes => by simp [running] at goes, fun _ => rfl⟩
  | false =>
    have heap := inv running
    cases goes : (afterSwitch b env st).halted with
    | true =>
      rw [iteration_halts running goes]
      refine ⟨fun halts => by simp [goes] at halts, fun complete => ?_⟩
      exact absurd (dispatch_reset (atSwitch_running b env running)
        goes) complete
    | false =>
      obtain ⟨same, balanced⟩ := turn_returned (by rw [heap]; exact ready) running spared goes
      rw [iteration_reads running goes]
      refine ⟨fun _ => ?_, fun _ => balanced⟩
      by_cases packet : 0 < arriving env st
      · rw [receive_packet packet]
        exact same.trans heap
      · rw [receive_quiet (Int.not_lt.mp packet)]
        exact same.trans heap

/-- While no mail is sent and no PUBLISH moves `payload_in`, every turn that completes frees
what it took and nothing else, and the pool stays as it was. -/
theorem blocks_returned (b : Board) (s : Start) (envs : List Env) (ready : s.heap.memrdy = true)
    (spared : Guarded (iteration b) (Spared b) [] envs (mqttThread s)) :
    (∀ r ∈ rounds b s envs, Completed r → Balanced (r.timed ++ r.answer)) ∧
      ((final (iteration b) envs (mqttThread s)).halted = false →
        (final (iteration b) envs (mqttThread s)).heap = s.heap) := by
  have keep := fun past env st (spared : Spared b past env st) inv =>
    (inv_step (s := s) ready past env st spared inv).1
  refine ⟨justified_forall ?_, ?_⟩
  · exact justified_outputs keep (fun past env st spared inv => (inv_step ready past env st spared inv).2)
      spared (fun _ => rfl) justified_nil
  · exact history_invariant keep spared (fun _ => rfl)

theorem blocks_returned_session :
    Guarded (iteration blankBoard) (Spared blankBoard) []
        [calm, calm, { calm with sendNow := 2000, doorOpened := true }]
        (mqttThread (startOn [0x20, 2, 0, 0])) ∧
      ∀ r ∈ rounds blankBoard (startOn [0x20, 2, 0, 0])
        [calm, calm, { calm with sendNow := 2000, doorOpened := true }],
        Completed r → Balanced (r.timed ++ r.answer) := by
  have spared : Guarded (iteration blankBoard) (Spared blankBoard) []
      [calm, calm, { calm with sendNow := 2000, doorOpened := true }]
      (mqttThread (startOn [0x20, 2, 0, 0])) := by decide +kernel
  exact ⟨spared, (blocks_returned blankBoard _ _ rfl spared).1⟩

/-- The block of the PUBLISH 30 02 00 00 is never freed, and an address in the stack buffer
is. -/
theorem blocks_lost :
    ¬ ∀ (b : Board) (s : Start) (envs : List Env), s.heap.memrdy = true →
      (∀ r ∈ rounds b s envs, Completed r → Balanced (r.timed ++ r.answer)) ∧
        ((final (iteration b) envs (mqttThread s)).halted = false →
          (final (iteration b) envs (mqttThread s)).heap = s.heap) := by
  intro returned
  have lost : ¬ ∀ r ∈ rounds blankBoard (startOn [0x30, 2, 0, 0]) [calm, calm],
      Completed r → Balanced (r.timed ++ r.answer) := by decide +kernel
  exact lost (returned blankBoard (startOn [0x30, 2, 0, 0]) [calm, calm] rfl).1

end BoxFirmware.MqttHeap
