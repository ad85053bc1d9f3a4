import BoxFirmware.MqttWindow

/-! Every inbound PUBLISH against what `mqtt_thread` does with it until it has read the next
packet. The packet stays the next step of the thread until a keyword or another packet
changes `msgtypes`, its text is what the buffer holds after the timed reports, and the
acknowledgement carries its DUP bit. -/
namespace BoxFirmware.MqttCommand
open ByteMem CText GuardedRun MqttPacket MqttThread

/-- The buffer that a PUBLISH is read into. -/
def imageOf (p : Publish) : List UInt8 := putBytes zeroBuf p.packet

def commandText (p : Publish) : List UInt8 := cstr p.payload

/-- The processor does not restart before it comes to `info`. -/
def wantsInfo (text : List UInt8) : Bool := has text "info" && !has text "reset"

def pubackOf (p : Publish) (sock rc : Int) : List Event :=
  if p.qos = 1 then [.sent sock (0x40 :: 2 :: writeInt p.packetid) 4 rc] else []

/-- The publish that answers `info`. -/
def IsRecord (b : Board) (e : Event) : Prop :=
  ∃ sock msgid retained rc env ptr,
    e = publishEvent sock msgid retained rc (recordText b env .answer ptr 700)

/-- A PUBLISH, with the turns since it was read: it is dispatched once, and its command and
its acknowledgement are all that comes of it. -/
def Obeyed (b : Board) (s : Start) (p : Publish) (back : List Round) : Prop :=
  dispatches back = 1 ∧
    ∃ residue sock rc record, (residue = [] ∨ residue = s.usartsendbuf) ∧ IsRecord b record ∧
      reactions back = commandEvents (commandText p) residue ++ pubackOf p sock rc ++
        if wantsInfo (commandText p) then [record] else []

/-- Every PUBLISH that was read, once its turn has come, and for `info` the turn after. -/
def AllObeyed (b : Board) (s : Start) (rs : List Round) : Prop :=
  ∀ front r back p, rs = front ++ r :: back → r.got = some (imageOf p) →
    (if wantsInfo (commandText p) then 2 else 1) ≤ back.length → Obeyed b s p back

def hasKeyword (text : List UInt8) : Bool :=
  has text "switch" || has text "reset" || has text "info" || has text "setMode" ||
    has text "restart"

/-- The turn of a PUBLISH that has a payload: no timed report overwrites the buffer, the
payload ends in it, QoS 1 comes with neither DUP nor `reset`, the text has a keyword unless
the turn reads the next packet, and behind `info` it reads none and no keyword follows. -/
def Heeded (b : Board) (_ : List Round) (env : Env) (st : St) : Prop :=
  st.halted = false → st.msgtypes = msgPublish → (deserializePublish env st).payload.isSome = true →
    0 ≤ (deserializePublish env st).payloadlen →
      reportCount env st = 0 ∧
      0 ∈ st.buf.drop ((deserializePublish env st).payload.getD 0) ∧
      ((deserializePublish env st).qos = 1 →
        (deserializePublish env st).dup = 0 ∧ has (publishText b env st) "reset" = false) ∧
      (hasKeyword (publishText b env st) = true ∨ 0 < arriving env st) ∧
      (wantsInfo (publishText b env st) = true → arriving env st ≤ 0 ∧
        has (publishText b env st) "setMode" = false ∧ has (publishText b env st) "restart" = false)

instance (b : Board) (past : List Round) (env : Env) (st : St) :
    Decidable (Heeded b past env st) :=
  inferInstanceAs (Decidable (_ → _ → _ → _ → _))

section Packet

variable {p : Publish} {env : Env} {st : St}

theorem deserialize_image (holds : st.buf = imageOf p) : deserializePublish env st =
    { dup := p.dup
      qos := p.qos
      retained := p.retained
      packetid := if p.qos > 0 then p.packetid else st.msgid
      payload := some p.offset
      payloadlen := p.payload.length } := by
  rw [deserializePublish, bufMem, holds, imageOf, putBytes, List.append_assoc,
    deserializePublish_packet]

theorem image_drop : (imageOf p).drop p.offset = p.payload ++ zeroBuf.drop p.packet.length := by
  obtain ⟨front, split, size⟩ := p.packet_split
  rw [imageOf, putBytes, split, ← size, List.append_assoc, List.drop_left]

theorem publishText_image (b : Board) (holds : st.buf = imageOf p)
    (ends : 0 ∈ st.buf.drop p.offset) : publishText b env st = commandText p := by
  have room : p.offset ≤ st.buf.length := by
    by_contra beyond
    rw [List.drop_eq_nil_of_le (by omega)] at ends
    cases ends
  rw [publishText, deserialize_image holds]
  simp only [payloadText]
  rw [List.drop_append_of_le_length room, cstr_append_of_mem _ _ ends, holds, image_drop]
  cases rest : zeroBuf.drop p.packet.length with
  | nil => rw [List.append_nil]; rfl
  | cons c rest' =>
    have zero : c = 0 := by
      have member : c ∈ zeroBuf := List.mem_of_mem_drop (rest ▸ List.mem_cons_self)
      exact List.eq_of_mem_replicate member
    rw [zero, cstr_zero]
    rfl

theorem pubackEvents_eq (holds : st.buf = imageOf p) (sock : Int) (first : p.qos = 1 → p.dup = 0) :
    pubackEvents env sock (deserializePublish env st) = pubackOf p sock (env.writeRc .answer) := by
  rw [deserialize_image holds, pubackEvents, pubackOf]
  dsimp only
  by_cases ack : p.qos = 1
  · rw [if_pos ack, if_pos ack, if_pos (by omega), first ack, sentBytes_ack _ _ _ _ (by decide),
      serializeAck_fst _ _ _ _ (by decide)]
    rfl
  · rw [if_neg ack, if_neg ack]

end Packet

section Turns

variable {b : Board} {env : Env} {st : St}

theorem info_turn (b : Board) (env : Env) {st : St} (running : st.halted = false) (type : st.msgtypes = 15) :
    (∃ record, IsRecord b record ∧ (iteration b env st).1.answer.filter isReaction = [record]) ∧
      (iteration b env st).1.dispatched ≠ msgPublish ∧
      ((iteration b env st).1.got = none → Idle (iteration b env st).2) := by
  obtain ⟨answer, dispatched, next⟩ := turn_answer b env running
  have on : (atSwitch b env st).msgtypes = 15 := by
    rw [atSwitch_msgtypes, switchOn_of_ne (by rw [type]; decide), type]
  rw [switchOn_of_ne (by rw [type]; decide), type] at dispatched
  rw [afterSwitch_eq, dispatch_info on] at answer next
  refine ⟨?_, by rw [dispatched]; decide, fun none => Or.inr (Or.inl ?_)⟩
  · rw [answer, infoCase_log]
    refine ⟨publishEvent (atSwitch b env st).mysock (atSwitch b env st).msgid
      (atSwitch b env st).retained (env.writeRc .answer)
      (recordText b env .answer (mallocSramin b 1024 (atSwitch b env st)).1 700),
      ⟨_, _, _, _, _, _, rfl⟩, ?_⟩
    have empty : (atSwitch b env st).log = [] := rfl
    rw [empty, List.nil_append, List.filter_cons_of_neg (by simp [isReaction]),
      List.filter_cons_of_pos (isReaction_publishEvent _ _ _ _ _),
      List.filter_cons_of_neg (by simp [isReaction])]
    rfl
  · rw [(next none).2]
    simp only [infoCase]

theorem filter_commandEvents (text usartsendbuf : List UInt8) :
    (commandEvents text usartsendbuf).filter isReaction = commandEvents text usartsendbuf := by
  refine List.filter_eq_self.mpr (fun e he => ?_)
  have kind := commandEvents_kind he
  cases e <;> first | rfl | exact kind.elim

theorem filter_pubackOf (p : Publish) (sock rc : Int) :
    (pubackOf p sock rc).filter isReaction = pubackOf p sock rc := by
  unfold pubackOf
  split <;> rfl

theorem commandNext_keyword {text : List UInt8} (keyword : hasKeyword text = true)
    (stays : has text "reset" = false) (plain : wantsInfo text = true →
      has text "setMode" = false ∧ has text "restart" = false) :
    commandNext text msgPublish = if wantsInfo text then 15 else 0 := by
  unfold commandNext
  unfold wantsInfo hasKeyword at *
  cases info : has text "info" <;> cases mode : has text "setMode" <;>
    cases restart : has text "restart" <;> cases switch : has text "switch" <;> simp_all

structure Met (b : Board) (p : Publish) (env : Env) (st : St) : Prop where
  publish : afterSwitch b env st = publishCase b env (atSwitch b env st)
  running : (atSwitch b env st).halted = false
  type : (atSwitch b env st).msgtypes = msgPublish
  holds : (atSwitch b env st).buf = imageOf p
  text : publishText b env (atSwitch b env st) = commandText p
  usart : (atSwitch b env st).usartsendbuf = st.usartsendbuf
  sock : (atSwitch b env st).mysock = st.mysock
  ack : p.qos = 1 → p.dup = 0 ∧ has (commandText p) "reset" = false
  keyword : hasKeyword (commandText p) = true ∨ 0 < arriving env st
  info : wantsInfo (commandText p) = true → arriving env st ≤ 0 ∧
    has (commandText p) "setMode" = false ∧ has (commandText p) "restart" = false

theorem met_publish {p : Publish} {past : List Round} (running : st.halted = false)
    (type : st.msgtypes = msgPublish) (holds : st.buf = imageOf p) (heeded : Heeded b past env st) :
    Met b p env st := by
  obtain ⟨idle, ends, ack, keyword, info⟩ := heeded running type
    (by rw [deserialize_image holds]; rfl) (by rw [deserialize_image holds]; exact Int.natCast_nonneg _)
  rw [deserialize_image holds] at ends ack
  rw [publishText_image b holds ends] at ack keyword info
  dsimp only at ends ack
  have core := atSwitch_core b env st
  have buf : (atSwitch b env st).buf = st.buf := (beforeSwitch_idle b env st idle).1
  have on : (atSwitch b env st).msgtypes = msgPublish := by
    rw [atSwitch_msgtypes, switchOn_of_ne (by rw [type]; decide), type]
  exact {
    publish := dispatch_publish on
    running := atSwitch_running b env running
    type := on
    holds := buf.trans holds
    text := publishText_image b (buf.trans holds) (by rw [buf]; exact ends)
    usart := congrArg Core.usartsendbuf core
    sock := congrArg Core.mysock core
    ack := ack
    keyword := keyword
    info := info }

theorem Met.answer {p : Publish} (met : Met b p env st) :
    (afterSwitch b env st).log.filter isReaction =
      commandEvents (commandText p) st.usartsendbuf ++ pubackOf p st.mysock (env.writeRc .answer) := by
  rw [met.publish, publishCase_log b env _ met.running, met.text, met.usart,
    pubackEvents_eq met.holds _ (fun one => (met.ack one).1), met.sock]
  cases resets : has (commandText p) "reset" with
  | false => simp [isReaction, filter_commandEvents, filter_pubackOf, atSwitch]
  | true =>
    have unacked : pubackOf p st.mysock (env.writeRc .answer) = [] := by
      rw [pubackOf, if_neg]
      intro one
      have stays := (met.ack one).2
      rw [resets] at stays
      cases stays
    simp [isReaction, filter_commandEvents, unacked, atSwitch]

theorem Met.next {p : Publish} (met : Met b p env st) (running : st.halted = false)
    (none : (iteration b env st).1.got = none) :
    if wantsInfo (commandText p) then
      (iteration b env st).2.halted = false ∧ (iteration b env st).2.msgtypes = 15
    else Idle (iteration b env st).2 := by
  obtain ⟨halts, types⟩ := (turn_answer b env running).2.2 none
  rw [met.publish] at halts types
  cases resets : has (commandText p) "reset" with
  | true =>
    have stopped : (publishCase b env (atSwitch b env st)).halted = true := by
      rw [publishCase_reset b env _ (by rw [met.text]; exact resets)]
    rw [if_neg (by simp [wantsInfo, resets])]
    exact Or.inl (halts.trans stopped)
  | false =>
    have state := publishCase_eq b env (atSwitch b env st) met.running (by rw [met.text, resets])
    have goes : (publishCase b env (atSwitch b env st)).halted = false := by
      rw [state]
      exact met.running
    have quiet := turn_got running none (by rw [met.publish]; exact goes)
    have next : (publishCase b env (atSwitch b env st)).msgtypes =
        if wantsInfo (commandText p) then 15 else 0 := by
      rw [state, met.type, met.text]
      exact commandNext_keyword (met.keyword.resolve_right (by omega)) resets
        (fun wants => (met.info wants).2)
    rw [next] at types
    split
    · rename_i wants
      rw [if_pos wants] at types
      exact ⟨halts.trans goes, types⟩
    · rename_i plain
      rw [if_neg plain] at types
      exact Or.inr (Or.inl types)

theorem publish_turn {p : Publish} (past : List Round) (running : st.halted = false)
    (type : st.msgtypes = msgPublish) (holds : st.buf = imageOf p) (heeded : Heeded b past env st) :
    (iteration b env st).1.answer.filter isReaction =
        commandEvents (commandText p) st.usartsendbuf ++ pubackOf p st.mysock (env.writeRc .answer) ∧
      (iteration b env st).1.dispatched = msgPublish ∧
      ((iteration b env st).1.got = none →
        if wantsInfo (commandText p) then (iteration b env st).2.halted = false ∧
          (iteration b env st).2.msgtypes = 15
        else Idle (iteration b env st).2) ∧
      (wantsInfo (commandText p) = true → (iteration b env st).1.got = none) := by
  have met := met_publish running type holds heeded
  obtain ⟨answer, dispatched, -⟩ := turn_answer b env running
  rw [switchOn_of_ne (by rw [type]; decide), type] at dispatched
  refine ⟨by rw [answer, met.answer], dispatched, met.next running, fun wants => ?_⟩
  cases stops : (afterSwitch b env st).halted with
  | true => rw [iteration_halts running stops]
  | false => rw [iteration_reads running stops, receive_quiet (met.info wants).1]

end Turns

section Windows

variable {b : Board}

theorem info_window (env : Env) (envs : List Env) {st : St} (running : st.halted = false)
    (type : st.msgtypes = 15) :
    (∃ record, IsRecord b record ∧ reactions (outputs (iteration b) (env :: envs) st) = [record]) ∧
      dispatches (outputs (iteration b) (env :: envs) st) = 0 := by
  obtain ⟨⟨record, kind, answer⟩, other, next⟩ := info_turn b env running type
  rw [outputs_cons, reactions_cons, dispatches_cons, answer, if_neg other]
  cases got : (iteration b env st).1.got with
  | some buf => exact ⟨⟨record, kind, rfl⟩, rfl⟩
  | none =>
    obtain ⟨rest, none⟩ := idle_window (b := b) envs (next got)
    exact ⟨⟨record, kind, by simp [rest]⟩, by simp [none]⟩

def Residue (s : Start) (st : St) : Prop := st.usartsendbuf = [] ∨ st.usartsendbuf = s.usartsendbuf

theorem dispatch_residue (b : Board) (env : Env) {now : St} (running : now.halted = false) :
    (dispatch b env now).usartsendbuf = [] ∨
      (dispatch b env now).usartsendbuf = now.usartsendbuf := by
  by_cases publish : now.msgtypes = msgPublish
  · rw [dispatch_publish publish]
    cases resets : has (publishText b env now) "reset" with
    | false =>
      rw [publishCase_eq b env now running resets]
      dsimp only [takeVars]
      split
      · exact Or.inl rfl
      · exact Or.inr rfl
    | true =>
      rw [publishCase_reset b env now resets]
      dsimp only [takeVars]
      split
      · exact Or.inl rfl
      · exact Or.inr rfl
  · exact Or.inr (congrArg Inbound.usartsendbuf (dispatch_inbound b env now publish))

theorem turn_usartsendbuf (env : Env) {st : St} (running : st.halted = false) :
    (iteration b env st).2.usartsendbuf = (afterSwitch b env st).usartsendbuf := by
  rw [iteration_state running]
  split
  · rfl
  · unfold receive
    dsimp only
    split <;> rfl

theorem residue_step {s : Start} {env : Env} {st : St} (residue : Residue s st) :
    Residue s (iteration b env st).2 := by
  cases running : st.halted with
  | true =>
    rw [iteration_stopped b env running]
    exact residue
  | false =>
    rw [Residue, turn_usartsendbuf env running, afterSwitch_eq]
    rcases dispatch_residue b env (atSwitch_running b env running) with empty | kept
    · exact Or.inl empty
    · rw [kept, atSwitch_usartsendbuf]
      exact residue

end Windows

theorem obeyed_outputs {b : Board} {s : Start} {p : Publish} {past : List Round} {envs : List Env}
    {st : St} (residue : Residue s st) (running : st.halted = false)
    (type : st.msgtypes = msgPublish) (holds : st.buf = imageOf p)
    (heeded : Guarded (iteration b) (Heeded b) past envs st)
    (enough : (if wantsInfo (commandText p) then 2 else 1) ≤ envs.length) :
    Obeyed b s p (outputs (iteration b) envs st) := by
  cases envs with
  | nil => split at enough <;> simp at enough
  | cons env envs =>
    obtain ⟨answer, dispatched, next, info⟩ := publish_turn past running type holds heeded.1
    rw [Obeyed, outputs_cons, reactions_cons, dispatches_cons, answer, if_pos dispatched]
    cases wants : wantsInfo (commandText p) with
    | false =>
      have rest : (if (iteration b env st).1.got.isSome then []
            else reactions (outputs (iteration b) envs (iteration b env st).2)) = [] ∧
          (if (iteration b env st).1.got.isSome then 0
            else dispatches (outputs (iteration b) envs (iteration b env st).2)) = 0 := by
        cases got : (iteration b env st).1.got with
        | some buf => exact ⟨rfl, rfl⟩
        | none =>
          have idle := next got
          rw [wants, if_neg (by simp)] at idle
          exact idle_window envs idle
      rw [rest.1, rest.2]
      exact ⟨rfl, st.usartsendbuf, st.mysock, env.writeRc .answer,
        publishEvent 0 0 0 0 (recordText b env .answer 0 700), residue, ⟨_, _, _, _, _, _, rfl⟩, rfl⟩
    | true =>
      cases envs with
      | nil => simp [wants] at enough
      | cons env' envs =>
        have quiet := info wants
        have state := next quiet
        rw [wants, if_pos rfl] at state
        obtain ⟨⟨record, kind, rest⟩, none⟩ := info_window env' envs state.1 state.2
        rw [quiet, if_neg (by simp), if_neg (by simp), rest, none]
        exact ⟨rfl, st.usartsendbuf, st.mysock, env.writeRc .answer, record, residue, kind, rfl⟩

theorem packetType_image {p : Publish} : packetType (imageOf p) = msgPublish := by
  simp [imageOf, putBytes, Publish.packet, publishPacket, msgPublish]

/-- While the turns of its PUBLISHes are heeded, the thread dispatches each of them once,
obeys it once and acknowledges it once. -/
theorem publish_obeyed (b : Board) (s : Start) (envs : List Env)
    (heeded : Guarded (iteration b) (Heeded b) [] envs (mqttThread s)) :
    AllObeyed b s (rounds b s envs) := by
  intro front r back p split got enough
  rw [List.append_cons] at split
  obtain ⟨before, after, rfl, fronts, backs⟩ := outputs_split (iteration b) split
  rw [guarded_append] at heeded
  have inv : Holding (front ++ [r]) (final (iteration b) before (mqttThread s)) ∧
      Residue s (final (iteration b) before (mqttThread s)) := by
    rw [← fronts, ← List.nil_append (outputs _ before _)]
    exact history_invariant (I := fun past st => Holding past st ∧ Residue s st)
      (fun past env st _ inv => ⟨holding_step b past env st, residue_step inv.2⟩)
      heeded.1 ⟨holding_nil _, Or.inr rfl⟩
  obtain ⟨running, holds, -, type, -⟩ := inv.1 (imageOf p) (by rw [pending_concat, got])
  rw [← backs] at enough ⊢
  rw [outputs_length] at enough
  exact obeyed_outputs inv.2 running (type.trans packetType_image) holds heeded.2 enough

def plain : Publish where
  dup := 0
  qos := 1
  retained := 0
  packetid := 5
  topicName := []
  payload := [97]
  dup_lt := by decide
  qos_lt := by decide
  retained_lt := by decide
  packetid_lt := by decide
  topicName_lt := by decide
  length_lt := by decide

theorem publish_obeyed_setMode :
    Guarded (iteration blankBoard) (Heeded blankBoard) [] (List.replicate 4 calm)
        (mqttThread (startOn (0x32 :: 11 :: 0 :: 0 :: 0 :: 5 :: ascii "setMode"))) ∧
      AllObeyed blankBoard (startOn (0x32 :: 11 :: 0 :: 0 :: 0 :: 5 :: ascii "setMode"))
        (rounds blankBoard (startOn (0x32 :: 11 :: 0 :: 0 :: 0 :: 5 :: ascii "setMode"))
          (List.replicate 4 calm)) := by
  have heeded : Guarded (iteration blankBoard) (Heeded blankBoard) [] (List.replicate 4 calm)
      (mqttThread (startOn (0x32 :: 11 :: 0 :: 0 :: 0 :: 5 :: ascii "setMode"))) := by decide +kernel
  exact ⟨heeded, publish_obeyed blankBoard _ _ heeded⟩

/-- A PUBLISH without a keyword is acknowledged again in every turn. -/
theorem publish_disobeyed :
    ¬ ∀ (b : Board) (s : Start) (envs : List Env), AllObeyed b s (rounds b s envs) := by
  intro obeyed
  let s := startOn plain.packet
  have twice : dispatches (outputs (iteration blankBoard) [calm, calm]
      (final (iteration blankBoard) [calm] (mqttThread s))) = 2 := by decide +kernel
  have once := (obeyed blankBoard s [calm, calm, calm] [] (iteration blankBoard calm (mqttThread s)).1
    (outputs (iteration blankBoard) [calm, calm] (final (iteration blankBoard) [calm] (mqttThread s)))
    plain rfl (by decide +kernel) (by decide +kernel)).1
  omega

end BoxFirmware.MqttCommand
