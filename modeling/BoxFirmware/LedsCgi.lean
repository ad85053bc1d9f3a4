import BoxFirmware.DeviceInfo

/-! `LEDS_CGI_Handler` with its pointers: what it creates and releases on the heap, which
pointers it writes through, and which array items it takes the values of. The texts and the
flash are those of the device configuration, where cJSON is given what it allocates. -/
namespace BoxFirmware.LedsCgi
open ByteMem CText DeviceInfo W25qxx

section Handler

/-- The objects on the heap, those of cJSON with all their items: the block that
`DevicePower_buf` points to at first, the arrays, the printed text, and `rdbuf`. -/
inductive Obj
  | powerBlock | hArray | vArray | httpRoot | printed | rdbuf
deriving DecidableEq

inductive Dest
  | deviceBuf
deriving DecidableEq

/-- `write` goes through a pointer, `item` takes the value of an array item that is there or
not, `freeArray` is a `free` of the static `Device_buf`. -/
inductive Act
  | create (obj : Obj)
  | release (obj : Obj)
  | write (pointer : Option Dest)
  | item (found : Bool)
  | freeArray
deriving DecidableEq

structure Out where
  acts : List Act
  result : Option (String × Web)

/-- `char * intdchar;`, which is never assigned. -/
def intdchar : Option Dest := none

def mymalloc (had : Obj → Bool) (obj : Obj) : List Act := if had obj then [.create obj] else []

/-- The loop over the channels with the objects it adds to `http_root`; a value of a missing
item ends it. -/
def chnlLoop (names powers : List (List UInt8)) : List Nat → List Act × Option (List (List UInt8))
  | [] => ([], some [])
  | intd :: later =>
    match names[intd]?, powers[intd]? with
    | none, _ => ([.write intdchar, .item false], none)
    | some _, none => ([.write intdchar, .item true, .item false], none)
    | some name, some power =>
      let rest := chnlLoop names powers later
      let record := printObject [("index", formatInt intd), ("name", name), ("power", power)]
      (.write intdchar :: .item true :: .item true :: rest.1, rest.2.map (record :: ·))

def deviceLine (clientId : Nat) (records : List (List UInt8)) : List UInt8 :=
  ascii "\x7b\"messageType\":\"device_info\",\"deviceNo\":" ++ formatInt clientId ++
    ascii ",\"chnls\":" ++ printArray records ++ ascii "\x7d"

def successPage : String := "/success.shtml"

def created (had : Obj → Bool) : List Act :=
  mymalloc had .powerBlock ++ [.create .hArray, .create .vArray, .create .httpRoot]

/-- Printing overwrites the only pointer to the first block. -/
def printed : List Act := [.create .printed, .write (some .deviceBuf)]

def returned (had : Obj → Bool) : List Act :=
  [.release .hArray, .release .vArray, .release .httpRoot, .release .printed] ++
    mymalloc had .rdbuf ++ [.freeArray]

def ledsCgiHandler (had : Obj → Bool) (clientId : Nat) (params : List Param) (web : Web) : Out :=
  let chnls := chnlLoop (valuesOf "device" params) (valuesOf "power" params) (List.range 14)
  let acts := created had ++ chnls.1
  match chnls.2 with
  | none => ⟨acts, none⟩
  | some records =>
    let line := deviceLine clientId records ++ [0]
    if line.length > deviceBufSize then ⟨acts ++ printed, none⟩
    else
      let buf := store web.deviceBuf 0 (ofList line) line.length
      ⟨acts ++ printed ++ returned had,
        (w25qxxWrite web.chip buf deviceInitFlashAddr deviceBufSize).map
          (fun chip => (successPage, ⟨buf, chip⟩))⟩

end Handler

section Parts

/-- Every pointer that is written through was set. -/
def Initialised (acts : List Act) : Prop := ∀ pointer, .write pointer ∈ acts → pointer ≠ none

def ItemsExist (acts : List Act) : Prop := .item false ∉ acts

/-- What was created is released, and nothing else is freed. -/
def Balanced (acts : List Act) : Prop :=
  (∀ obj, .create obj ∈ acts ↔ .release obj ∈ acts) ∧ .freeArray ∉ acts

def wantedText (clientId : Nat) (params : List Param) : Option (List UInt8) :=
  let names := valuesOf "device" params
  ((List.range names.length).mapM (chnlRecord names (valuesOf "power" params))).map
    (deviceLine clientId)

def StoredIn (clientId : Nat) (params : List Param) (web : Web) : Prop :=
  ∃ text rest, wantedText clientId params = some text ∧ 0 ∉ text ∧
    slice web.chip.cells deviceInitFlashAddr deviceBufSize = text ++ 0 :: rest

/-- A page is returned, and the configuration is stored. -/
def Serves (clientId : Nat) (params : List Param) (out : Out) : Prop :=
  ∃ page web, out.result = some (page, web) ∧ StoredIn clientId params web

structure Meets (clientId : Nat) (params : List Param) (out : Out) : Prop where
  serves : Serves clientId params out
  initialised : Initialised out.acts
  items : ItemsExist out.acts
  balanced : Balanced out.acts

/-- As many devices as the box has channels, a power for each, and room for the text. -/
def FullPage (clientId : Nat) (params : List Param) : Prop :=
  (valuesOf "device" params).length = 14 ∧ 14 ≤ (valuesOf "power" params).length ∧
    ∀ text, deviceText clientId params = some text → text.length < 1024

end Parts

section Records

theorem chnlLoop_records (names powers : List (List UInt8)) (is : List Nat) :
    (chnlLoop names powers is).2 = is.mapM (chnlRecord names powers) := by
  induction is with
  | nil => rfl
  | cons intd later ih =>
    rw [chnlLoop, List.mapM_cons, ← ih, chnlRecord]
    cases names[intd]? <;> cases powers[intd]? <;> try rfl
    dsimp only
    cases (chnlLoop names powers later).2 <;> rfl

theorem chnlLoop_items (names powers : List (List UInt8)) (is : List Nat) :
    .item false ∈ (chnlLoop names powers is).1 ↔ (chnlLoop names powers is).2 = none := by
  induction is with
  | nil => simp [chnlLoop]
  | cons intd later ih =>
    rw [chnlLoop]
    cases names[intd]? <;> cases powers[intd]? <;> simp [ih]

theorem chnlLoop_writes (names powers : List (List UInt8)) (intd : Nat) (later : List Nat) :
    .write none ∈ (chnlLoop names powers (intd :: later)).1 := by
  rw [chnlLoop]
  split <;> simp [intdchar]

theorem chnlLoop_noRelease (names powers : List (List UInt8)) (obj : Obj) (is : List Nat) :
    .release obj ∉ (chnlLoop names powers is).1 := by
  induction is with
  | nil => simp [chnlLoop]
  | cons intd later ih =>
    rw [chnlLoop]
    cases names[intd]? <;> cases powers[intd]? <;> simp [ih]

theorem chnlRecord_isSome {names powers : List (List UInt8)} {intd : Nat} :
    (chnlRecord names powers intd).isSome ↔ intd < names.length ∧ intd < powers.length := by
  unfold chnlRecord
  split
  · rename_i name power there there'
    have inside := (List.getElem?_eq_some_iff.mp there).1
    have inside' := (List.getElem?_eq_some_iff.mp there').1
    simp [inside, inside']
  · rename_i missing
    constructor
    · intro some
      cases some
    · intro inside
      exact absurd (List.getElem?_eq_getElem inside.2)
        (missing _ _ (List.getElem?_eq_getElem inside.1))

theorem mapM_isSome {α β : Type} {f : α → Option β} {xs : List α} :
    (xs.mapM f).isSome ↔ ∀ x ∈ xs, (f x).isSome := by
  induction xs with
  | nil => simp
  | cons x xs ih =>
    rw [List.forall_mem_cons, ← ih, List.mapM_cons]
    cases f x <;> cases xs.mapM f <;> simp

theorem mapM_ne_nil {α β : Type} {f : α → Option β} {xs : List α} {ys : List β} (nonempty : xs ≠ [])
    (all : xs.mapM f = some ys) : ys ≠ [] := by
  obtain ⟨x, xs, rfl⟩ := List.exists_cons_of_ne_nil nonempty
  rw [List.mapM_cons] at all
  obtain ⟨y, -, rest⟩ := Option.bind_eq_some_iff.mp all
  obtain ⟨zs, -, cons⟩ := Option.bind_eq_some_iff.mp rest
  rw [← Option.some.inj cons]
  exact List.cons_ne_nil y zs

theorem records_isSome {names powers : List (List UInt8)} {n : Nat} :
    ((List.range n).mapM (chnlRecord names powers)).isSome ↔
      n ≤ names.length ∧ n ≤ powers.length := by
  simp only [mapM_isSome, chnlRecord_isSome, List.mem_range]
  constructor
  · intro all
    cases n with
    | zero => simp
    | succ n => exact all n (Nat.lt_succ_self n)
  · intro room intd inside
    omega

theorem deviceText_eq (clientId : Nat) (params : List Param) : deviceText clientId params =
    ((List.range 14).mapM (chnlRecord (valuesOf "device" params)
      (valuesOf "power" params))).map (deviceLine clientId) := by
  rw [deviceText, devicePower, Option.map_map]
  rfl

theorem intercalate_longer {sep : List UInt8} (some : sep ≠ []) (x : List UInt8)
    (xs : List (List UInt8)) (z : List UInt8) (zs : List (List UInt8)) :
    (sep.intercalate (x :: xs)).length < (sep.intercalate (x :: xs ++ z :: zs)).length := by
  have positive := List.length_pos_of_ne_nil some
  induction xs generalizing x with
  | nil =>
    rw [List.cons_append, List.nil_append, List.intercalate_cons_cons]
    simp
    omega
  | cons y xs ih =>
    have longer := ih y
    simp only [List.cons_append, List.intercalate_cons_cons, List.length_append] at longer ⊢
    omega

theorem deviceLine_longer (clientId : Nat) {xs zs : List (List UInt8)} (some : xs ≠ [])
    (more : zs ≠ []) :
    (deviceLine clientId xs).length < (deviceLine clientId (xs ++ zs)).length := by
  obtain ⟨x, xs, rfl⟩ := List.exists_cons_of_ne_nil some
  obtain ⟨z, zs, rfl⟩ := List.exists_cons_of_ne_nil more
  have body := intercalate_longer (List.cons_ne_nil 44 []) x xs z zs
  simp only [deviceLine, printArray, List.length_append, List.length_cons, List.length_nil]
  omega

end Records

section Claims

variable (had : Obj → Bool) (clientId : Nat) (params : List Param) (web : Web)

theorem handler_refines : (ledsCgiHandler had clientId params web).result.map Prod.snd =
    DeviceInfo.ledsCgiHandler clientId params web := by
  have records := chnlLoop_records (valuesOf "device" params) (valuesOf "power" params)
    (List.range 14)
  rw [ledsCgiHandler, DeviceInfo.ledsCgiHandler, deviceText_eq, ← records]
  cases (chnlLoop (valuesOf "device" params) (valuesOf "power" params) (List.range 14)).2 with
  | none => rfl
  | some records =>
    dsimp only [Option.map_some]
    split
    · rfl
    · rw [Option.map_map]
      rfl

theorem handler_cases : ∃ acts records,
    chnlLoop (valuesOf "device" params) (valuesOf "power" params) (List.range 14) =
      (acts, records) ∧
    (records = none ∧ ledsCgiHandler had clientId params web = ⟨created had ++ acts, none⟩ ∨
      records.isSome ∧
        ledsCgiHandler had clientId params web = ⟨created had ++ acts ++ printed, none⟩ ∨
      records.isSome ∧ ∃ web', ledsCgiHandler had clientId params web =
        ⟨created had ++ acts ++ printed ++ returned had, some (successPage, web')⟩) := by
  unfold ledsCgiHandler
  obtain ⟨acts, records⟩ :=
    chnlLoop (valuesOf "device" params) (valuesOf "power" params) (List.range 14)
  refine ⟨acts, records, rfl, ?_⟩
  cases records with
  | none => exact Or.inl ⟨rfl, rfl⟩
  | some records =>
    right
    dsimp only
    split
    · exact Or.inl ⟨rfl, rfl⟩
    · obtain ⟨chip, written, -⟩ := w25qxxWrite_store web.chip
        (store web.deviceBuf 0 (ofList (deviceLine clientId records ++ [0]))
          (deviceLine clientId records ++ [0]).length) deviceInitFlashAddr deviceBufSize
        (by decide) (by decide) (by decide)
      rw [written]
      exact Or.inr ⟨rfl, _, rfl⟩

theorem mymalloc_creates {obj : Obj} {act : Act} (member : act ∈ mymalloc had obj) :
    act = .create obj := by
  unfold mymalloc at member
  split at member
  · exact List.mem_singleton.mp member
  · cases member

theorem created_creates {act : Act} (member : act ∈ created had) : ∃ obj, act = .create obj := by
  rcases List.mem_append.mp member with block | tree
  · exact ⟨_, mymalloc_creates had block⟩
  · simp only [List.mem_cons, List.not_mem_nil, or_false] at tree
    rcases tree with rfl | rfl | rfl <;> exact ⟨_, rfl⟩

theorem returned_noItem : .item false ∉ returned had := by
  intro item
  simp only [returned, List.mem_append] at item
  rcases item with (tree | block) | last
  · simp at tree
  · cases mymalloc_creates had block
  · simp at last

/-- The number is printed through `intdchar` before anything is looked up. -/
theorem handler_writes : .write none ∈ (ledsCgiHandler had clientId params web).acts := by
  obtain ⟨acts, records, loop, ways⟩ := handler_cases had clientId params web
  have first := chnlLoop_writes (valuesOf "device" params) (valuesOf "power" params) 0
    ((List.range 13).map Nat.succ)
  rw [← List.range_succ_eq_map, loop] at first
  rcases ways with ⟨-, out⟩ | ⟨-, out⟩ | ⟨-, web', out⟩ <;> rw [out] <;> simp [first]

theorem handler_returns {page : String} {web' : Web}
    (back : (ledsCgiHandler had clientId params web).result = some (page, web')) :
    .freeArray ∈ (ledsCgiHandler had clientId params web).acts ∧
      ItemsExist (ledsCgiHandler had clientId params web).acts := by
  obtain ⟨acts, records, loop, ways⟩ := handler_cases had clientId params web
  rcases ways with ⟨-, out⟩ | ⟨-, out⟩ | ⟨found, web'', out⟩
  · rw [out] at back
    cases back
  · rw [out] at back
    cases back
  · rw [out]
    refine ⟨by simp [returned], ?_⟩
    have items := chnlLoop_items (valuesOf "device" params) (valuesOf "power" params)
      (List.range 14)
    rw [loop] at items
    have loopItems : .item false ∉ acts := fun item => by
      have none := items.mp item
      dsimp only at none
      rw [none] at found
      cases found
    intro item
    simp only [List.mem_append] at item
    rcases item with ((front | item) | item) | item
    · obtain ⟨obj, create⟩ := created_creates had front
      cases create
    · exact loopItems item
    · simp [printed] at item
    · exact returned_noItem had item

theorem handler_unbalanced : ¬ Balanced (ledsCgiHandler had clientId params web).acts := by
  intro balanced
  obtain ⟨acts, records, loop, ways⟩ := handler_cases had clientId params web
  have kept := chnlLoop_noRelease (valuesOf "device" params) (valuesOf "power" params) .hArray
    (List.range 14)
  rw [loop] at kept
  have front : .release .hArray ∉ created had := by
    intro release
    obtain ⟨obj, create⟩ := created_creates had release
    cases create
  have made : .create .hArray ∈ created had := by simp [created]
  rcases ways with ⟨-, out⟩ | ⟨-, out⟩ | ⟨-, web', out⟩ <;> rw [out] at balanced
  · have released := (balanced.1 .hArray).mp (List.mem_append_left _ made)
    simp [kept, front] at released
  · have released := (balanced.1 .hArray).mp
      (List.mem_append_left _ (List.mem_append_left _ made))
    simp [kept, front, printed] at released
  · exact balanced.2 (by simp [returned])

variable {had clientId params web}

theorem wantedText_full (full : (valuesOf "device" params).length = 14) :
    wantedText clientId params = deviceText clientId params := by
  rw [wantedText, deviceText_eq, full]

theorem full_of_wanted {text : List UInt8} (made : deviceText clientId params = some text)
    (wanted : wantedText clientId params = some text) :
    (valuesOf "device" params).length = 14 ∧ 14 ≤ (valuesOf "power" params).length := by
  rw [deviceText_eq] at made
  obtain ⟨xs, records, line⟩ := Option.map_eq_some_iff.mp made
  obtain ⟨ys, wantedRecords, wantedLine⟩ := Option.map_eq_some_iff.mp wanted
  have room := records_isSome.mp (Option.isSome_of_eq_some records)
  refine ⟨?_, room.2⟩
  by_contra other
  obtain ⟨k, more⟩ := Nat.exists_eq_add_of_le room.1
  rw [more, List.range_add, List.mapM_append, records] at wantedRecords
  rw [Option.bind_eq_bind, Option.bind_some] at wantedRecords
  obtain ⟨zs, later, both⟩ := Option.bind_eq_some_iff.mp wantedRecords
  have further : zs ≠ [] := mapM_ne_nil (by simp; omega) later
  have longer := deviceLine_longer clientId (mapM_ne_nil (by simp) records) further
  rw [Option.some.inj both, line, wantedLine] at longer
  omega

theorem full_of_serves (serves : Serves clientId params (ledsCgiHandler had clientId params web)) :
    FullPage clientId params := by
  obtain ⟨page, web', result, text, rest, wanted, clean, area⟩ := serves
  have ran := handler_refines had clientId params web
  rw [result] at ran
  obtain ⟨text', rest', made, clean', area'⟩ := handler_stores ran.symm
  have same : text = text' := by
    have both := congrArg cstr (area.symm.trans area')
    rwa [cstr_zero, cstr_zero, cstr_clean clean, cstr_clean clean'] at both
  subst same
  have full := full_of_wanted made wanted
  refine ⟨full.1, full.2, ?_⟩
  intro other made'
  obtain rfl := Option.some.inj (made.symm.trans made')
  have size := congrArg List.length area
  rw [slice_length, List.length_append, List.length_cons, deviceBufSize] at size
  omega

theorem serves_of_full (full : FullPage clientId params) :
    Serves clientId params (ledsCgiHandler had clientId params web) := by
  obtain ⟨devices, powers, short⟩ := full
  have entries := records_isSome.mpr ⟨Nat.le_of_eq devices.symm, powers⟩
  obtain ⟨records, all⟩ := Option.isSome_iff_exists.mp entries
  have made : deviceText clientId params = some (deviceLine clientId records) := by
    rw [deviceText_eq, all, Option.map_some]
  have size : (deviceText clientId params).map List.length =
      some (deviceLine clientId records).length := by
    rw [made, Option.map_some]
  obtain ⟨text, web', made', -, ran⟩ := page_runs size (short _ made) web
  have one : DeviceInfo.ledsCgiHandler clientId params web = some web' := by
    simpa [requestsRun] using ran
  have refines := handler_refines had clientId params web
  rw [one] at refines
  obtain ⟨⟨page, web''⟩, result, rfl⟩ := Option.map_eq_some_iff.mp refines
  obtain ⟨text', rest, made'', clean, area⟩ := handler_stores one
  exact ⟨page, web'', result, text', rest, (wantedText_full devices).trans made'', clean, area⟩

/-- No request is handled as it should be: the handler always writes through a pointer that was
never set, and it never releases just what it created. Apart from this it does its work exactly
for a full page. -/
theorem ledsCgiHandler_never (had : Obj → Bool) (clientId : Nat) (params : List Param)
    (web : Web) : ¬ Meets clientId params (ledsCgiHandler had clientId params web) ∧
      ¬ Initialised (ledsCgiHandler had clientId params web).acts ∧
      ¬ Balanced (ledsCgiHandler had clientId params web).acts ∧
      (Serves clientId params (ledsCgiHandler had clientId params web) ∧
        ItemsExist (ledsCgiHandler had clientId params web).acts ↔ FullPage clientId params) := by
  have wild : ¬ Initialised (ledsCgiHandler had clientId params web).acts :=
    fun set => set none (handler_writes had clientId params web) rfl
  refine ⟨fun meets => wild meets.initialised, wild, handler_unbalanced had clientId params web,
    fun both => full_of_serves both.1, ?_⟩
  intro full
  have serves : Serves clientId params (ledsCgiHandler had clientId params web) :=
    serves_of_full full
  obtain ⟨page, web', back, -⟩ := serves
  exact ⟨serves_of_full full, (handler_returns had clientId params web back).2⟩

/-- Not even the page with fourteen lamps, for which the heap gives every block. -/
theorem ledsCgiHandler_lamps :
    ¬ Meets 7 lamps (ledsCgiHandler (fun _ => true) 7 lamps erased) :=
  fun meets => meets.initialised none (handler_writes _ 7 lamps erased) rfl

end Claims

end BoxFirmware.LedsCgi
