import BoxFirmware.MqttTurn

/-! The device configuration: `LEDS_CGI_Handler` formats the names and powers that the web page
sends and stores the text in the flash, where three readers look for it: the report after
connecting, the report for the `info` command, and `main` for the daughter board. What cJSON
allocates is taken to be there; the handler's two heap blocks, which it never frees, its
`free` of an array and its uninitialized `intdchar` are left out. -/
namespace BoxFirmware.DeviceInfo
open ByteMem CText Malloc MqttPacket W25qxx MqttThread

section Print

def hexChar (d : Nat) : UInt8 := UInt8.ofNat (if d < 10 then 48 + d else 87 + d)

def escapeByte (b : UInt8) : List UInt8 :=
  if b > 31 ∧ b ≠ 34 ∧ b ≠ 92 then [b]
  else 92 :: match b with
    | 92 => [92]
    | 34 => [34]
    | 8 => [98]
    | 12 => [102]
    | 10 => [110]
    | 13 => [114]
    | 9 => [116]
    | _ => ascii "u00" ++ [hexChar (b.toNat / 16), hexChar (b.toNat % 16)]

def printStringPtr (input : List UInt8) : List UInt8 := 34 :: (cstr input).flatMap escapeByte ++ [34]

def printObject (child : List (String × List UInt8)) : List UInt8 :=
  123 :: [44].intercalate
    (child.map (fun (key, value) => printStringPtr (ascii key) ++ 58 :: printStringPtr value)) ++ [125]

def printArray (child : List (List UInt8)) : List UInt8 := 91 :: [44].intercalate child ++ [93]

theorem hexChar_ne_zero {d : Nat} (digit : d < 16) : hexChar d ≠ 0 := by
  intro zero
  have value := congrArg UInt8.toNat zero
  rw [hexChar, UInt8.toNat_ofNat'] at value
  split at value <;> simp at value <;> omega

theorem escapeByte_clean {b : UInt8} (char : b ≠ 0) : 0 ∉ escapeByte b := by
  unfold escapeByte
  split
  · simpa using char.symm
  · have high := hexChar_ne_zero (d := b.toNat / 16) (by have := b.toNat_lt; omega)
    have low := hexChar_ne_zero (d := b.toNat % 16) (Nat.mod_lt _ (by decide))
    have front : 0 ∉ ascii "u00" := by decide
    split <;> simp [high.symm, low.symm, front]

theorem printStringPtr_clean (input : List UInt8) : 0 ∉ printStringPtr input := by
  have chars : 0 ∉ (cstr input).flatMap escapeByte := by
    rw [List.mem_flatMap]
    rintro ⟨b, member, zero⟩
    apply escapeByte_clean _ zero
    intro none
    exact zero_not_mem_cstr input (none ▸ member)
  simp [printStringPtr, chars]

theorem intercalate_clean {texts : List (List UInt8)} (each : ∀ text ∈ texts, 0 ∉ text) :
    0 ∉ [(44 : UInt8)].intercalate texts := by
  induction texts with
  | nil => simp
  | cons text texts ih =>
    have first := each text List.mem_cons_self
    have rest := ih (fun t later => each t (List.mem_cons_of_mem text later))
    cases texts with
    | nil => simpa using first
    | cons second texts =>
      rw [List.intercalate_cons_cons]
      simp [first, rest]

theorem printObject_clean (child : List (String × List UInt8)) : 0 ∉ printObject child := by
  have members : ∀ text ∈ child.map (fun (key, value) =>
      printStringPtr (ascii key) ++ 58 :: printStringPtr value), 0 ∉ text := by
    intro text member
    obtain ⟨⟨key, value⟩, -, rfl⟩ := List.mem_map.mp member
    simp [printStringPtr_clean]
  simp [printObject, intercalate_clean members]

theorem printArray_clean {child : List (List UInt8)} (each : ∀ text ∈ child, 0 ∉ text) :
    0 ∉ printArray child := by
  simp [printArray, intercalate_clean each]

end Print

section Handler

/-- A name of the request, and its value unless there is no `=`. -/
structure Param where
  name : List UInt8
  value : Option (List UInt8)

def deviceBufSize : Nat := 1024
def deviceInitFlashAddr : Nat := 0x1010

def findCGIParameter (pcToFind : List UInt8) (params : List Param) : Option Nat :=
  params.findIdx? (fun p => pcToFind == cstr p.name)

/-- `h_array` and `v_array`: the strings of one name; a missing value is not added. -/
def valuesOf (word : String) (params : List Param) : List (List UInt8) :=
  match findCGIParameter (ascii word) params with
  | none => []
  | some _ => params.filterMap (fun p => if cstr p.name = ascii word then p.value.map cstr else none)

def chnlRecord (names powers : List (List UInt8)) (intd : Nat) : Option (List UInt8) :=
  match names[intd]?, powers[intd]? with
  | some name, some power =>
    some (printObject [("index", formatInt intd), ("name", name), ("power", power)])
  | _, _ => none

def devicePower (params : List Param) : Option (List UInt8) :=
  ((List.range 14).mapM
    (chnlRecord (valuesOf "device" params) (valuesOf "power" params))).map printArray

def deviceText (clientId : Nat) (params : List Param) : Option (List UInt8) :=
  (devicePower params).map (fun chnls =>
    ascii "\x7b\"messageType\":\"device_info\",\"deviceNo\":" ++ formatInt clientId ++
      ascii ",\"chnls\":" ++ chnls ++ ascii "\x7d")

structure Web where
  deviceBuf : Mem
  chip : Chip

/-- A text that overruns the buffer ends it, as a pointer to a missing item does. -/
def ledsCgiHandler (clientId : Nat) (params : List Param) (web : Web) : Option Web :=
  match deviceText clientId params with
  | none => none
  | some text =>
    let line := text ++ [0]
    if line.length > deviceBufSize then none
    else
      let buf := store web.deviceBuf 0 (ofList line) line.length
      (w25qxxWrite web.chip buf deviceInitFlashAddr deviceBufSize).map (fun chip => ⟨buf, chip⟩)

/-- The requests of the web page, one after the other. -/
def requestsRun (clientId : Nat) (requests : List (List Param)) (web : Web) : Option Web :=
  requests.foldlM (fun web params => ledsCgiHandler clientId params web) web

/-- The text of the last request. -/
def storedText (clientId : Nat) (requests : List (List Param)) : Option (List UInt8) :=
  requests.getLast?.bind (deviceText clientId)

theorem chnlRecord_clean {names powers : List (List UInt8)} {intd : Nat} {text : List UInt8}
    (made : chnlRecord names powers intd = some text) : 0 ∉ text := by
  unfold chnlRecord at made
  split at made
  · rw [← Option.some.inj made]
    exact printObject_clean _
  · cases made

theorem mapM_forall {α β : Type} {f : α → Option β} {P : β → Prop}
    (each : ∀ a b, f a = some b → P b) {xs : List α} {ys : List β} (all : xs.mapM f = some ys) :
    ∀ y ∈ ys, P y := by
  induction xs generalizing ys with
  | nil =>
    obtain rfl : ys = [] := by simpa using all.symm
    simp
  | cons x xs ih =>
    cases first : f x with
    | none => simp [first] at all
    | some y =>
      cases rest : xs.mapM f with
      | none => simp [first, rest] at all
      | some zs =>
        obtain rfl : y :: zs = ys := by simpa [first, rest] using all
        rintro b (_ | ⟨_, later⟩)
        · exact each x y first
        · exact ih rest b later

theorem deviceText_clean {clientId : Nat} {params : List Param} {text : List UInt8}
    (made : deviceText clientId params = some text) : 0 ∉ text := by
  obtain ⟨chnls, power, rfl⟩ := Option.map_eq_some_iff.mp made
  obtain ⟨records, all, rfl⟩ := Option.map_eq_some_iff.mp power
  have body := printArray_clean (mapM_forall (P := (0 ∉ ·)) (fun _ _ => chnlRecord_clean) all)
  have id := zero_not_mem_formatInt clientId
  have front : 0 ∉ ascii "\x7b\"messageType\":\"device_info\",\"deviceNo\":" := by decide
  have behind : 0 ∉ ascii ",\"chnls\":" ∧ 0 ∉ ascii "\x7d" := by decide
  simp [front, behind, body, id]

theorem handler_stores {clientId : Nat} {params : List Param} {web web' : Web}
    (ran : ledsCgiHandler clientId params web = some web') : ∃ text rest,
      deviceText clientId params = some text ∧ 0 ∉ text ∧
        slice web'.chip.cells deviceInitFlashAddr deviceBufSize = text ++ 0 :: rest := by
  unfold ledsCgiHandler at ran
  cases made : deviceText clientId params with
  | none => simp [made] at ran
  | some text =>
    rw [made] at ran
    dsimp only at ran
    split at ran
    · cases ran
    · rename_i fits
      obtain ⟨chip, written, rfl⟩ := Option.map_eq_some_iff.mp ran
      obtain ⟨chip', again, cells⟩ := w25qxxWrite_store web.chip
        (store web.deviceBuf 0 (ofList (text ++ [0])) (text ++ [0]).length) deviceInitFlashAddr
        deviceBufSize (by decide) (by decide) (by decide)
      obtain rfl := Option.some.inj (written.symm.trans again)
      obtain ⟨rest, bytes⟩ := take_prefix_slice web.deviceBuf (text ++ [0]) deviceBufSize
      refine ⟨text, rest, rfl, deviceText_clean made, ?_⟩
      rw [List.take_of_length_le (Nat.not_lt.mp fits), List.append_assoc] at bytes
      rw [cells, slice_store]
      exact bytes.symm

theorem requests_store {clientId : Nat} {requests : List (List Param)} {web web' : Web}
    {text : List UInt8} (ran : requestsRun clientId requests web = some web')
    (stored : storedText clientId requests = some text) : ∃ rest, 0 ∉ text ∧
      slice web'.chip.cells deviceInitFlashAddr deviceBufSize = text ++ 0 :: rest := by
  rcases List.eq_nil_or_concat requests with none | ⟨earlier, params, last⟩
  · rw [none] at stored
    cases stored
  · rw [last, List.concat_eq_append] at ran stored
    rw [storedText, List.getLast?_concat, Option.bind_some] at stored
    rw [requestsRun, List.foldlM_append] at ran
    obtain ⟨mid, -, final⟩ := Option.bind_eq_some_iff.mp ran
    obtain ⟨text', rest, made, clean, bytes⟩ := handler_stores (by simpa using final)
    obtain rfl := Option.some.inj (stored.symm.trans made)
    exact ⟨rest, clean, bytes⟩

theorem requests_none {clientId : Nat} {requests : List (List Param)} {web web' : Web}
    (ran : requestsRun clientId requests web = some web')
    (none : storedText clientId requests = none) : web' = web := by
  rcases List.eq_nil_or_concat requests with empty | ⟨earlier, params, last⟩
  · rw [empty] at ran
    exact (Option.some.inj ran).symm
  · rw [last, List.concat_eq_append] at ran none
    rw [requestsRun, List.foldlM_append] at ran
    obtain ⟨mid, -, final⟩ := Option.bind_eq_some_iff.mp ran
    obtain ⟨text, rest, made, -⟩ := handler_stores (by simpa using final)
    rw [storedText, List.getLast?_concat, Option.bind_some, made] at none
    cases none

end Handler

section Readers

/-- The bytes that `W25QXX_Read` loads from the area. -/
def loaded (chip : Chip) (n : Nat) : List UInt8 :=
  slice (w25qxxRead chip (fun _ => 0) deviceInitFlashAddr n) 0 n

/-- The text in `buf3`, with what lies behind the block of `buf2`. -/
def mainText (chip : Chip) (behind : List UInt8) : List UInt8 :=
  cstr (loaded chip 1024 ++ behind) ++ ascii "\r\n"

def reportEvents (b : Board) (env : Env) (site : Site) (st : St) (text : List UInt8) : List Event :=
  let ptr := (mallocSramin b 1024 st).1
  let packet := publishPacket 0 publishReqQos st.retained st.msgid devicePublish text
  [.malloc 1024 ptr, .sent st.mysock packet packet.length (env.writeRc site), .free ptr]

/-- What is read from a buffer stays within the loaded bytes. -/
def Within (ptr : Nat) (bytes : List UInt8) : Prop := ptr ≠ 0 ∧ 0 ∈ bytes

/-- Both reports publish the text, no reader leaves the bytes it loaded, and the copy of
`main` fits its buffer. -/
structure Agree (b : Board) (env env' : Env) (st st' : St) (chip : Chip) (behind text : List UInt8) :
    Prop where
  init : (initReport b env st).log = st.log ++ reportEvents b env .init st text
  info : (infoCase b env' st').log = st'.log ++ reportEvents b env' .answer st' text
  initWithin : Within (mallocSramin b 1024 st).1 (loaded chip 1024)
  infoWithin : Within (mallocSramin b 1024 st').1 (loaded chip 700)
  mainWithin : 0 ∈ loaded chip 1024
  mainFits : (mainText chip behind ++ [0]).length ≤ 1024

theorem loaded_eq (chip : Chip) {n : Nat} (inside : n ≤ deviceBufSize) :
    loaded chip n = (slice chip.cells deviceInitFlashAddr deviceBufSize).take n := by
  rw [slice_take _ _ inside]
  apply slice_congr
  intro i within
  rw [Nat.zero_add]
  exact w25qxxRead_apply chip _ _ n i within
    (by have size : deviceInitFlashAddr + deviceBufSize ≤ 2^24 := by decide
        omega)

theorem recordText_within {b : Board} {env : Env} {site : Site} {ptr n : Nat}
    (within : Within ptr (loaded env.flash n)) :
    recordText b env site ptr n = cstr (loaded env.flash n) := by
  rw [recordText, if_neg within.1]
  exact cstr_append_of_mem _ _ within.2

theorem publishEvent_short (sock : Int) (msgid retained : Nat) (rc : Int) {text : List UInt8}
    (short : text.length < 700) :
    let packet := publishPacket 0 publishReqQos retained msgid devicePublish text
    publishEvent sock msgid retained rc text = .sent sock packet packet.length rc := by
  have topic : devicePublish.length = 13 := by decide
  have fits : ¬ mqttPacketLen (mqttSerializePublishLength publishReqQos devicePublish text) > buflen := by
    simp only [mqttSerializePublishLength, topic, mqttPacketLen, buflen]
    split_ifs <;> omega
  dsimp only
  rw [publishEvent, mqttSerializePublish, sentBytes_serialized, if_neg fits, serialized, if_neg fits]

theorem publishPacket_length (retained msgid : Nat) (text : List UInt8) :
    19 + text.length ≤ (publishPacket 0 publishReqQos retained msgid devicePublish text).length := by
  have topic : devicePublish.length = 13 := by decide
  have field : 0 < (mqttPacketEncode (mqttSerializePublishLength publishReqQos devicePublish
      text)).length := by
    rw [mqttPacketEncode, encodeDigits]
    split <;> simp
  have id : (if publishReqQos > 0 then writeInt msgid else []).length = 2 := rfl
  simp only [publishPacket, List.length_append, id]
  simp only [writeCString, writeInt, List.length_append, List.length_cons, List.length_nil, topic]
  omega

theorem publishEvent_empty {sock : Int} {msgid retained : Nat} {rc : Int} {text packet : List UInt8}
    {len : Int} (event : publishEvent sock msgid retained rc text = .sent sock packet len rc)
    (empty : packet = publishPacket 0 publishReqQos retained msgid devicePublish []) : text = [] := by
  have bytes : sentBytes (mqttSerializePublish [] buflen 0 publishReqQos retained msgid devicePublish
      text) = packet := by
    injection event
  have size : packet.length = 19 := by
    rw [empty]
    rfl
  rw [mqttSerializePublish, sentBytes_serialized] at bytes
  split at bytes
  · rw [← bytes] at size
    cases size
  · have count := publishPacket_length retained msgid text
    rw [bytes, size] at count
    exact List.eq_nil_of_length_eq_zero (by omega)

theorem agree_of_short {b : Board} {env env' : Env} {st st' : St} {chip : Chip}
    {behind text rest : List UInt8} (flash : env.flash = chip) (flash' : env'.flash = chip)
    (first : st.ti = true) (block : (mallocSramin b 1024 st).1 ≠ 0)
    (block' : (mallocSramin b 1024 st').1 ≠ 0) (clean : 0 ∉ text)
    (area : slice chip.cells deviceInitFlashAddr deviceBufSize = text ++ 0 :: rest)
    (short : text.length < 700) : Agree b env env' st st' chip behind text := by
  have prefixes : ∀ n, n = 1024 ∨ n = 700 → ∃ more, loaded chip n = text ++ 0 :: more := by
    intro n size
    refine ⟨rest.take (n - text.length - 1), ?_⟩
    have inside : n ≤ deviceBufSize := by rw [deviceBufSize]; omega
    rw [loaded_eq chip inside, area, List.take_append, List.take_of_length_le (by omega)]
    have left : n - text.length = n - text.length - 1 + 1 := by omega
    rw [left, List.take_succ_cons]
    rfl
  have stop : ∀ n, n = 1024 ∨ n = 700 → 0 ∈ loaded chip n ∧ cstr (loaded chip n) = text := by
    intro n size
    obtain ⟨more, bytes⟩ := prefixes n size
    rw [bytes]
    exact ⟨by simp, cstr_append_zero text more (fun c member zero => clean (zero ▸ member))⟩
  obtain ⟨stop1024, text1024⟩ := stop 1024 (.inl rfl)
  obtain ⟨stop700, text700⟩ := stop 700 (.inr rfl)
  have initText : recordText b env .init (mallocSramin b 1024 st).1 1024 = text := by
    rw [← flash] at stop1024 text1024
    rw [recordText_within ⟨block, stop1024⟩, text1024]
  have infoText : recordText b env' .answer (mallocSramin b 1024 st').1 700 = text := by
    rw [← flash'] at stop700 text700
    rw [recordText_within ⟨block', stop700⟩, text700]
  constructor
  · rw [initReport_log b env st first, initText, publishEvent_short _ _ _ _ short]
    rfl
  · rw [infoCase_log, infoText, publishEvent_short _ _ _ _ short]
    rfl
  · exact ⟨block, stop1024⟩
  · exact ⟨block', stop700⟩
  · exact stop1024
  · have ends : (ascii "\r\n").length = 2 := by decide
    have line : mainText chip behind = text ++ ascii "\r\n" := by
      rw [mainText, cstr_append_of_mem _ _ stop1024, text1024]
    have count : (mainText chip behind ++ [0]).length = text.length + 3 := by
      simp [line, ends]
    omega

theorem short_of_agree {b : Board} {env env' : Env} {st st' : St} {chip : Chip}
    {behind text rest : List UInt8} (agree : Agree b env env' st st' chip behind text)
    (clean : 0 ∉ text)
    (area : slice chip.cells deviceInitFlashAddr deviceBufSize = text ++ 0 :: rest) :
    text.length < 700 := by
  by_contra long
  have zero := agree.infoWithin.2
  rw [loaded_eq _ (by decide), area, List.take_append_of_le_length (Nat.not_lt.mp long)] at zero
  exact clean (List.mem_of_mem_take zero)

theorem area_head (chip : Chip) : ∃ rest,
    slice chip.cells deviceInitFlashAddr deviceBufSize = chip.cells deviceInitFlashAddr :: rest := by
  have size : deviceBufSize = 1 + 1023 := by decide
  have head : slice chip.cells deviceInitFlashAddr 1 = [chip.cells deviceInitFlashAddr] := by
    simp [slice]
  refine ⟨slice chip.cells (deviceInitFlashAddr + 1) 1023, ?_⟩
  rw [size, slice_add, head, List.singleton_append]

theorem zero_of_agree {b : Board} {env env' : Env} {st st' : St} {chip : Chip}
    {behind : List UInt8} (flash : env.flash = chip) (first : st.ti = true)
    (agree : Agree b env env' st st' chip behind []) : chip.cells deviceInitFlashAddr = 0 := by
  obtain ⟨rest, area⟩ := area_head chip
  have event := agree.init
  rw [initReport_log b env st first] at event
  have published := publishEvent_empty (by simpa [reportEvents] using event) rfl
  rw [recordText_within (by rw [flash]; exact agree.initWithin), flash, loaded_eq _ (by decide),
    cstr_eq_nil, area] at published
  simpa using published

/-- The last text is short, or the area starts with a NUL where no text was stored. -/
def Short (chip : Chip) : Option (List UInt8) → Prop
  | some text => text.length < 700
  | none => chip.cells deviceInitFlashAddr = 0

/-- For every sequence of requests and every content of the area, the readers agree on the
last text exactly when it is short and the reports get their blocks. -/
theorem device_info_agree (b : Board) (requests : List (List Param)) {web web' : Web}
    (ran : requestsRun b.clientId requests web = some web') {env env' : Env} {st st' : St}
    (flash : env.flash = web'.chip) (flash' : env'.flash = web'.chip) (first : st.ti = true)
    (behind : List UInt8) :
    Agree b env env' st st' web'.chip behind ((storedText b.clientId requests).getD []) ↔
      (mallocSramin b 1024 st).1 ≠ 0 ∧ (mallocSramin b 1024 st').1 ≠ 0 ∧
        Short web.chip (storedText b.clientId requests) := by
  cases stored : storedText b.clientId requests with
  | some text =>
    obtain ⟨rest, clean, area⟩ := requests_store ran stored
    constructor
    · intro agree
      exact ⟨agree.initWithin.1, agree.infoWithin.1, short_of_agree agree clean area⟩
    · rintro ⟨block, block', short⟩
      exact agree_of_short flash flash' first block block' clean area short
  | none =>
    obtain rfl := requests_none ran stored
    constructor
    · intro agree
      exact ⟨agree.initWithin.1, agree.infoWithin.1, zero_of_agree flash first agree⟩
    · rintro ⟨block, block', zero⟩
      obtain ⟨rest, area⟩ := area_head web'.chip
      have ends : web'.chip.cells deviceInitFlashAddr = 0 := zero
      rw [ends, ← List.nil_append (0 :: _)] at area
      exact agree_of_short flash flash' first block block' List.not_mem_nil area (by decide)

end Readers

section Examples

def page (name power : String) : List Param :=
  (List.replicate 14 [⟨ascii "device", some (ascii name)⟩, ⟨ascii "power", some (ascii power)⟩]).flatten

def erased : Web := ⟨fun _ => 0, ⟨fun _ => 0xFF, false⟩⟩

theorem page_runs {clientId : Nat} {params : List Param} {n : Nat}
    (size : (deviceText clientId params).map List.length = some n) (fits : n < 1024) (web : Web) :
    ∃ text web', deviceText clientId params = some text ∧ text.length = n ∧
      requestsRun clientId [params] web = some web' := by
  obtain ⟨text, made, count⟩ := Option.map_eq_some_iff.mp size
  obtain ⟨chip, written, -⟩ := w25qxxWrite_store web.chip
    (store web.deviceBuf 0 (ofList (text ++ [0])) (text ++ [0]).length) deviceInitFlashAddr
    deviceBufSize (by decide) (by decide) (by decide)
  have room : ¬ (text ++ [0]).length > deviceBufSize := by
    rw [List.length_append, List.length_singleton, count, deviceBufSize]
    omega
  have ran : ledsCgiHandler clientId params web =
      some ⟨store web.deviceBuf 0 (ofList (text ++ [0])) (text ++ [0]).length, chip⟩ := by
    rw [ledsCgiHandler, made]
    dsimp only
    rw [if_neg room, written]
    rfl
  refine ⟨text, ⟨store web.deviceBuf 0 (ofList (text ++ [0])) (text ++ [0]).length, chip⟩, made,
    count, ?_⟩
  rw [requestsRun, List.foldlM_cons, ran]
  rfl

def lamps : List Param := page "lamp" "60"

theorem device_info_agree_lamps : ∃ web, requestsRun blankBoard.clientId [lamps] erased = some web ∧
    (Agree blankBoard { calm with flash := web.chip } { calm with flash := web.chip }
        (mqttThread (startOn [])) (mqttThread (startOn [])) web.chip []
        ((storedText blankBoard.clientId [lamps]).getD []) ↔
      (mallocSramin blankBoard 1024 (mqttThread (startOn []))).1 ≠ 0 ∧
        (mallocSramin blankBoard 1024 (mqttThread (startOn []))).1 ≠ 0 ∧
        Short erased.chip (storedText blankBoard.clientId [lamps])) := by
  have size : (deviceText 7 lamps).map List.length = some 630 := by decide +kernel
  obtain ⟨text, web, made, count, ran⟩ := page_runs size (by decide) erased
  exact ⟨web, ran, device_info_agree blankBoard [lamps] ran rfl rfl rfl []⟩

def streetLamps : List Param := page "street lamp 3" "60"

/-- A text of 756 bytes is cut by the answer to `info`; and an erased area is reported as it is. -/
theorem device_info_cut :
    (∃ web, requestsRun blankBoard.clientId [streetLamps] erased = some web ∧
      ¬ Agree blankBoard { calm with flash := web.chip } { calm with flash := web.chip }
        (mqttThread (startOn [])) (mqttThread (startOn [])) web.chip []
        ((storedText blankBoard.clientId [streetLamps]).getD [])) ∧
      ¬ Agree blankBoard calm calm (mqttThread (startOn [])) (mqttThread (startOn [])) erased.chip []
        ((storedText blankBoard.clientId []).getD []) := by
  constructor
  · have size : (deviceText 7 streetLamps).map List.length = some 756 := by decide +kernel
    obtain ⟨text, web, made, count, ran⟩ := page_runs size (by decide) erased
    have stored : storedText blankBoard.clientId [streetLamps] = some text := made
    refine ⟨web, ran, fun agree => ?_⟩
    obtain ⟨rest, clean, area⟩ := requests_store ran stored
    rw [stored, Option.getD_some] at agree
    have short := short_of_agree agree clean area
    omega
  · intro agree
    have zero := zero_of_agree rfl rfl agree
    cases zero

end Examples

end BoxFirmware.DeviceInfo
