import BoxFirmware.Credentials

/-! A value of the server on its way through three arrays: `sprintf` into `get_passidbuf`,
forty bytes of it into the flash record of its phase, and those read back into `regist_buf`
or `passcode_buf`. The thread looks at the length of the value nowhere. -/
namespace BoxFirmware.Credentials
open ByteMem CText TcpClient W25qxx

def passidbufSize : Nat := 50
def registLenth : Nat := 64

def valueOf : Option (Cjson.Item × Cjson.Item) → Option (List UInt8)
  | some (getR, .number valueint _) =>
    if valueint = 0 then
      match getR.getObjectItem (ascii "value") with
      | some (.string valuestring) => some valuestring
      | _ => none
    else none
  | _ => none

def readBack (phase : NextStep) (st : St) : Mem :=
  match phase with
  | .reg => st.registBuf
  | .que => st.passcodeBuf

/-- A value that `st` copies and `mid` stores: every write stays inside its array, and the
value that stands in the record, and is read back, is the whole one. -/
structure ValueKept (value : List UInt8) (phase : NextStep) (st mid st' : St) : Prop where
  copied : (cstr value ++ [0]).length ≤ passidbufSize
  buffer : ∀ i, passidbufSize ≤ i → mid.getPassidbuf i = st.getPassidbuf i
  record : ∀ j, j < phase.addr ∨ phase.addr + 40 ≤ j → st'.chip.cells j = st.chip.cells j
  back : ∀ i, registLenth ≤ i → readBack phase st' i = readBack phase st i
  stored : cstr value ++ [0] <+: area st'.chip phase
  read : cstr (slice (readBack phase st') 0 registLenth) = cstr value

section Copies

variable {st : St} {value : List UInt8}

theorem sprintfString_outside (buf : Mem) (s : List UInt8) {i : Nat}
    (behind : (cstr s ++ [0]).length ≤ i) : sprintfString buf s i = buf i :=
  store_outside _ _ _ _ (.inr (by omega))

theorem readBack_flash (env : Env) (phase : NextStep) (running : st.status = .running)
    (atFlash : st.step = phase.flashStep) :
    readBack phase (tcpClientStep env st) =
      w25qxxRead (tcpClientStep env st).chip (readBack phase st) phase.addr 40 := by
  obtain ⟨chip, run, -⟩ := storeCredential st.chip st.getPassidbuf phase
  rw [tcpClientStep, if_neg (not_not.mpr running), atFlash]
  cases phase with
  | reg =>
    rw [show NextStep.reg.addr = 100 from rfl] at run
    change readBack .reg (registerFlashStep env st) = _
    unfold registerFlashStep
    simp only [run]
    rfl
  | que =>
    rw [show NextStep.que.addr = queryFalshAddr from rfl] at run
    change readBack .que (queryFalshStep st) = _
    unfold queryFalshStep
    simp only [run]
    rfl

theorem flash_stored (env : Env) (phase : NextStep) (running : st.status = .running)
    (atFlash : st.step = phase.flashStep) : Stored phase st (tcpClientStep env st) := by
  rw [tcpClientStep, if_neg (not_not.mpr running), atFlash]
  cases phase with
  | reg => exact registerFlashStep_stored env st
  | que => exact queryFalshStep_stored st

theorem valueOf_eq {ack : Option (Cjson.Item × Cjson.Item)} (issues : valueOf ack = some value) :
    ∃ getR valuedouble, ack = some (getR, .number 0 valuedouble) ∧
      getR.getObjectItem (ascii "value") = some (.string value) := by
  unfold valueOf at issues
  split at issues
  · rename_i getR valueint valuedouble
    split at issues
    · rename_i zero
      split at issues
      · rename_i valuestring found
        obtain rfl := Option.some.inj issues
        exact ⟨getR, valuedouble, by rw [zero], found⟩
      · cases issues
    · cases issues
  · cases issues

theorem parse_issues {env : Env} (running : st.status = .running) (atParse : st.step = .parse)
    (issues : valueOf (readAck env (recvText env st)) = some value) :
    tcpClientStep env st =
      { st.emit [.reply st.finStep (recvText env st), .issued st.finStep (cstr value)] with
        getPassidbuf := sprintfString st.getPassidbuf value
        step := st.finStep.flashStep } := by
  obtain ⟨getR, valuedouble, ack, found⟩ := valueOf_eq issues
  rw [tcpClientStep, if_neg (not_not.mpr running), atParse]
  dsimp only
  rw [parseStep, ack]
  dsimp only
  rw [codeSwitch, if_pos rfl, storeValue, found]
  cases phase : st.finStep <;> simp [St.emit, phase, NextStep.flashStep]

end Copies

section Value

variable {env env' : Env} {st : St} {value : List UInt8}

theorem value_passes (running : st.status = .running) (atParse : st.step = .parse)
    (issues : valueOf (readAck env (recvText env st)) = some value) :
    (tcpClientStep env st).getPassidbuf = sprintfString st.getPassidbuf value ∧
      (tcpClientStep env' (tcpClientStep env st)).chip.cells =
        store st.chip.cells st.finStep.addr
          (ofList (slice (sprintfString st.getPassidbuf value) 0 40)) 40 ∧
      readBack st.finStep (tcpClientStep env' (tcpClientStep env st)) =
        w25qxxRead (tcpClientStep env' (tcpClientStep env st)).chip (readBack st.finStep st)
          st.finStep.addr 40 := by
  have issue := parse_issues running atParse issues
  have next : (tcpClientStep env st).status = .running := by
    rw [issue]
    exact running
  have atFlash : (tcpClientStep env st).step = st.finStep.flashStep := by rw [issue]
  have stored := flash_stored env' st.finStep next atFlash
  have back := readBack_flash env' st.finStep next atFlash
  have same : readBack st.finStep (tcpClientStep env st) = readBack st.finStep st := by
    rw [issue]
    cases st.finStep <;> rfl
  have cells := stored.cells
  rw [same] at back
  rw [show (tcpClientStep env st).chip = st.chip by rw [issue]; rfl,
    show (tcpClientStep env st).getPassidbuf = sprintfString st.getPassidbuf value by rw [issue]]
    at cells
  exact ⟨by rw [issue], cells, back⟩

theorem value_area (running : st.status = .running) (atParse : st.step = .parse)
    (issues : valueOf (readAck env (recvText env st)) = some value) :
    area (tcpClientStep env' (tcpClientStep env st)).chip st.finStep =
      slice (sprintfString st.getPassidbuf value) 0 40 := by
  obtain ⟨-, cells, -⟩ := @value_passes env env' st value running atParse issues
  rw [area_store cells, if_pos rfl]

/-- A longer value has no terminator in the record. -/
theorem ValueKept.short {mid st' : St} {phase : NextStep}
    (kept : ValueKept value phase st mid st') : (cstr value).length < 40 := by
  have room := kept.stored.length_le
  rw [area, slice_length, List.length_append, List.length_singleton] at room
  exact room

end Value

/-- A value is kept on its way into the flash and back just when it has at most 39
characters. -/
theorem value_kept (env env' : Env) (st : St) (value : List UInt8) (running : st.status = .running)
    (atParse : st.step = .parse) (issues : valueOf (readAck env (recvText env st)) = some value) :
    ValueKept value st.finStep st (tcpClientStep env st)
        (tcpClientStep env' (tcpClientStep env st)) ↔ (cstr value).length ≤ 39 := by
  constructor
  · exact fun kept => Nat.le_of_lt_succ kept.short
  · intro short
    obtain ⟨buf, cells, back⟩ := @value_passes env env' st value running atParse issues
    have room : st.finStep.addr + 40 ≤ 2^24 := by cases st.finStep <;> decide
    have length : (cstr value ++ [0]).length ≤ 40 := by
      rw [List.length_append, List.length_singleton]
      exact Nat.succ_le_succ short
    have stored : cstr value ++ [0] <+:
        area (tcpClientStep env' (tcpClientStep env st)).chip st.finStep := by
      have front := sprintf_prefix st.getPassidbuf value
      rw [value_area running atParse issues]
      rwa [List.take_of_length_le length] at front
    refine ⟨Nat.le_trans length (by decide), fun i behind => ?_, fun j outside => ?_,
      fun i behind => ?_, stored, ?_⟩
    · have size : passidbufSize = 50 := rfl
      rw [buf, sprintfString_outside _ _ (by omega)]
    · rw [cells, store_outside _ _ _ _ outside]
    · have size : registLenth = 64 := rfl
      rw [back, w25qxxRead, store_outside _ _ _ _ (by omega)]
    · have record : slice (readBack st.finStep (tcpClientStep env' (tcpClientStep env st))) 0
          40 = area (tcpClientStep env' (tcpClientStep env st)).chip st.finStep := by
        refine slice_congr (fun k inside => ?_)
        rw [Nat.zero_add, back]
        exact w25qxxRead_apply _ _ _ _ k inside room
      obtain ⟨rest, whole⟩ := stored
      rw [show registLenth = 40 + 24 from rfl, slice_add, record, ← whole,
        List.append_assoc, List.append_assoc]
      refine cstr_append_zero (cstr value) _ (fun c member zero => ?_)
      exact zero_not_mem_cstr value (zero ▸ member)

/-- The thread in `PARSE_STEP` behind the answer to its register request. -/
def replied (env : Env) : St := runThread env blank (fun _ => 0) [env, env]

theorem value_kept_a :
    ValueKept (ascii "a") .reg (replied codeZero) (tcpClientStep codeZero (replied codeZero))
      (tcpClientStep codeZero (tcpClientStep codeZero (replied codeZero))) :=
  (value_kept codeZero codeZero (replied codeZero) (ascii "a") (by decide +kernel)
    (by decide +kernel) (by decide +kernel)).mpr (by decide +kernel)

/-- `"code":0,"value":` and a value of 45 characters, in braces. -/
def longValue : Env :=
  answer (ascii "\x7b\"code\":0,\"value\":\"" ++ List.replicate 45 0x61 ++ ascii "\"\x7d")

/-- It fits `get_passidbuf`, but the record cuts it. -/
theorem value_truncated :
    (replied longValue).status = .running ∧ (replied longValue).step = .parse ∧
      valueOf (readAck longValue (recvText longValue (replied longValue))) =
        some (List.replicate 45 0x61) ∧
      ¬ ValueKept (List.replicate 45 0x61) .reg (replied longValue)
        (tcpClientStep longValue (replied longValue))
        (tcpClientStep longValue (tcpClientStep longValue (replied longValue))) := by
  refine ⟨by decide +kernel, by decide +kernel, by decide +kernel, fun kept => ?_⟩
  exact absurd kept.short (by decide +kernel)

end BoxFirmware.Credentials
