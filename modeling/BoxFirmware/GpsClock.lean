import BoxFirmware.CivilTime
import BoxFirmware.GpsRecord

/-! The local time that `Get_Gps` makes of the two texts in `Save_Data`, and the text that
`dht11_task` makes of it. -/
namespace BoxFirmware.GetGps
open ByteMem CText Commit CivilTime

def formatSigned (x : Int) : List UInt8 := formatInt (x % 4294967296).toNat

def timeBuf (c : Clock) : List UInt8 :=
  ascii "20" ++ formatSigned c.year ++ ascii "." ++ formatSigned c.mouth ++ ascii "." ++
    formatSigned c.date ++ ascii " " ++ formatSigned c.hour ++ ascii ":" ++ formatSigned c.min ++
    ascii ":" ++ formatSigned c.sec

def civilText (c : Civil) : List UInt8 :=
  formatInt c.date.year ++ ascii "." ++ formatInt c.date.month ++ ascii "." ++
    formatInt c.date.day ++ ascii " " ++ formatInt c.hour ++ ascii ":" ++ formatInt c.minute ++
    ascii ":" ++ formatInt c.second

def twoDigits (n : Nat) : List UInt8 := [digitChar (n / 10), digitChar (n % 10)]

/-- `hhmmss`. -/
def rmcTime (c : Civil) : List UInt8 := twoDigits c.hour ++ twoDigits c.minute ++ twoDigits c.second

/-- `ddmmyy`. -/
def rmcDate (d : Date) : List UInt8 := twoDigits d.day ++ twoDigits d.month ++ twoDigits (d.year % 100)

def isDigit (b : UInt8) : Prop := 48 ≤ b ∧ b ≤ 57

instance (b : UInt8) : Decidable (isDigit b) := inferInstanceAs (Decidable (_ ∧ _))

/-- The two arrays hold the time, with a fraction if there is one, and the date. -/
structure Received (mem : Mem) (c : Civil) (fraction : List UInt8) : Prop where
  time : cstr (slice mem 82 11) = rmcTime c ++ fraction
  date : cstr (slice mem 121 11) = rmcDate c.date
  point : ∀ b ∈ fraction.head?, ¬ isDigit b

/-- The clock and its text are those of the civil time eight hours later. -/
def Local (clock : Clock) (c : Civil) : Prop :=
  let later := addHours 8 c
  clock = ⟨(later.date.year % 100 : Nat), (later.date.month : Nat), (later.date.day : Nat),
      (later.hour : Nat), (later.minute : Nat), (later.second : Nat)⟩ ∧
    timeBuf clock = civilText later

section Numbers

theorem digitRun_stop (n : Nat) {bytes : List UInt8} (stop : ∀ b ∈ bytes.head?, ¬ isDigit b) :
    digitRun n bytes = n := by
  cases bytes with
  | nil => rfl
  | cons b bytes =>
    have plain : ¬ (48 ≤ b ∧ b ≤ 57) := stop b rfl
    rw [digitRun, if_neg plain]

theorem digitRun_digit (n : Nat) {d : Nat} (small : d < 10) (rest : List UInt8) :
    digitRun n (digitChar d :: rest) = digitRun (10 * n + d) rest := by
  have char : ∀ d < 10, isDigit (digitChar d) ∧ (digitChar d).toNat - 48 = d := by decide
  obtain ⟨⟨lower, upper⟩, value⟩ := char d small
  rw [digitRun, if_pos ⟨lower, upper⟩, value]

theorem digitRun_twoDigits (n : Nat) {m : Nat} (small : m < 100) (rest : List UInt8) :
    digitRun n (twoDigits m ++ rest) = digitRun (100 * n + m) rest := by
  have tens : 10 * (10 * n + m / 10) + m % 10 = 100 * n + m := by omega
  rw [twoDigits, List.cons_append, List.cons_append, List.nil_append,
    digitRun_digit n (by omega), digitRun_digit _ (by omega), tens]

theorem atoi_six {a b c : Nat} (ha : a < 100) (hb : b < 100) (hc : c < 100) {rest : List UInt8}
    (stop : ∀ b ∈ rest.head?, ¬ isDigit b) :
    atoi (twoDigits a ++ twoDigits b ++ twoDigits c ++ rest) =
      ((10000 * a + 100 * b + c : Nat) : Int) := by
  have char : ∀ d < 10, isSpace (digitChar d) = false ∧ digitChar d ≠ 45 ∧ digitChar d ≠ 43 := by
    decide
  obtain ⟨space, minus, plus⟩ := char (a / 10) (by omega)
  have value : digitRun 0 (twoDigits a ++ (twoDigits b ++ (twoDigits c ++ rest))) =
      10000 * a + 100 * b + c := by
    rw [digitRun_twoDigits 0 ha, digitRun_twoDigits _ hb, digitRun_twoDigits _ hc,
      digitRun_stop _ stop]
    omega
  rw [List.append_assoc, List.append_assoc, ← value]
  simp only [atoi, twoDigits, List.cons_append, List.dropWhile_cons, space, Bool.false_eq_true,
    if_false, minus, plus]

theorem tdiv_cast (m n : Nat) : (m : Int).tdiv (n : Int) = ((m / n : Nat) : Int) := rfl

theorem tmod_cast (m n : Nat) : (m : Int).tmod (n : Int) = ((m % n : Nat) : Int) := rfl

theorem text_of_cstr (mem : Mem) {a n k : Nat} {t : List UInt8} (array : cstr (slice mem a n) = t)
    (more : n ≤ k) : ∃ rest, slice mem a k = t ++ rest ∧ (t.length < n → rest.head? = some 0) := by
  obtain ⟨r, rfl⟩ := Nat.exists_eq_add_of_le more
  rw [slice_add]
  by_cases zero : 0 ∈ slice mem a n
  · obtain ⟨rest, split⟩ := cstr_split zero
    rw [array] at split
    refine ⟨0 :: rest ++ slice mem (a + n) r, ?_, fun _ => rfl⟩
    rw [split, List.append_assoc]
  · rw [cstr_clean zero] at array
    refine ⟨slice mem (a + n) r, by rw [array], fun short => ?_⟩
    rw [← array, slice_length] at short
    exact absurd short (Nat.lt_irrefl n)

end Numbers

section Local

variable {mem : Mem} {c : Civil} {fraction : List UInt8}

theorem nul_stops : ∀ b ∈ (some 0 : Option UInt8), ¬ isDigit b := by
  intro b member
  rw [← Option.mem_some.mp member]
  decide

theorem atoi_time (received : Received mem c fraction) (valid : c.Valid) :
    atoi (text mem 82) = ((10000 * c.hour + 100 * c.minute + c.second : Nat) : Int) := by
  obtain ⟨rest, split, zero⟩ := text_of_cstr mem received.time (k := saveDataSize - 82) (by decide)
  have hour := valid.hour
  have minute := valid.minute
  have second := valid.second
  rw [text, split, rmcTime, List.append_assoc]
  refine atoi_six (by omega) (by omega) (by omega) ?_
  cases point : fraction with
  | nil =>
    rw [point] at zero
    rw [List.nil_append, zero (by simp [rmcTime, twoDigits])]
    exact nul_stops
  | cons b fraction =>
    have plain := received.point
    rw [point] at plain
    exact plain

theorem atoi_date (received : Received mem c fraction) (valid : c.Valid) :
    atoi (text mem 121) =
      ((10000 * c.date.day + 100 * c.date.month + c.date.year % 100 : Nat) : Int) := by
  obtain ⟨rest, split, zero⟩ := text_of_cstr mem received.date (k := saveDataSize - 121) (by decide)
  have month := valid.date.month_le
  have days : monthDays c.date.year c.date.month ≤ 31 := monthDays_le _ _
  have day := valid.date.day_le
  rw [text, split, rmcDate]
  refine atoi_six (by omega) (by omega) (by omega) ?_
  rw [zero (by simp [rmcDate, twoDigits])]
  exact nul_stops

theorem readClock_received (received : Received mem c fraction) (valid : c.Valid) :
    readClock mem = ⟨(c.date.year % 100 : Nat), (c.date.month : Nat), (c.date.day : Nat),
      (c.hour + 8 : Nat), (c.minute : Nat), (c.second : Nat)⟩ := by
  have minute := valid.minute
  have second := valid.second
  have month := valid.date.month_le
  have time := tdiv_cast (10000 * c.hour + 100 * c.minute + c.second)
  have date := tdiv_cast (10000 * c.date.day + 100 * c.date.month + c.date.year % 100)
  rw [readClock, atoi_time received valid, atoi_date received valid]
  congr 1
  · exact (tmod_cast _ 100).trans (by omega)
  · exact (congrArg (Int.tmod · 100) (date 100)).trans ((tmod_cast _ 100).trans (by omega))
  · exact (date 10000).trans (by omega)
  · exact (congrArg (· + 8) (time 10000)).trans (by omega)
  · exact (congrArg (Int.tmod · 100) (time 100)).trans ((tmod_cast _ 100).trans (by omega))
  · exact (tmod_cast _ 100).trans (by omega)

theorem formatSigned_nat {n : Nat} (word : n < 2^32) : formatSigned (n : Int) = formatInt n := by
  have same : ((n : Int) % 4294967296).toNat = n := by omega
  rw [formatSigned, same]

theorem local_iff (valid : c.Valid) (century : 2000 ≤ c.date.year ∧ c.date.year < 2100) :
    Local ⟨(c.date.year % 100 : Nat), (c.date.month : Nat), (c.date.day : Nat), (c.hour + 8 : Nat),
        (c.minute : Nat), (c.second : Nat)⟩ c ↔ c.hour < 16 ∧ 2010 ≤ c.date.year := by
  have month := valid.date.month_le
  have days := valid.date.day_le
  have bound := monthDays_le c.date.year c.date.month
  have minute := valid.minute
  have second := valid.second
  by_cases today : c.hour < 16
  · have later : addHours 8 c = { c with hour := c.hour + 8 } := if_pos (by omega)
    obtain ⟨y, small, year⟩ : ∃ y < 100, c.date.year = 2000 + y :=
      ⟨c.date.year - 2000, by omega, by omega⟩
    have digits : ∀ y < 100, ascii "20" ++ formatInt y = formatInt (2000 + y) ↔ 10 ≤ y := by
      decide +kernel
    have short : (2000 + y) % 100 = y := by omega
    have enough : 2010 ≤ 2000 + y ↔ 10 ≤ y := by omega
    simp only [Local, later, true_and, today, timeBuf, civilText, year, short, enough]
    rw [formatSigned_nat (by omega), formatSigned_nat (by omega), formatSigned_nat (by omega),
      formatSigned_nat (by omega), formatSigned_nat (by omega), formatSigned_nat (by omega)]
    simp only [List.append_left_inj]
    exact digits y small
  · have later : (addHours 8 c).hour = c.hour + 8 - 24 := by
      rw [addHours, if_neg (by omega)]
    constructor
    · rintro ⟨same, -⟩
      have hours := congrArg Clock.hour same
      simp only [later] at hours
      omega
    · rintro ⟨before, -⟩
      exact absurd before today

theorem local_seconds {clock : Clock} (valid : c.Valid) (shows : Local clock c) :
    ∃ t : Civil, t.Valid ∧ seconds t = seconds c + 28800 ∧ timeBuf clock = civilText t := by
  refine ⟨addHours 8 c, addHours_valid (by decide) valid, ?_, shows.2⟩
  exact seconds_addHours 8 valid

end Local

section Call

theorem put_clock (f : Field) (bytes : List UInt8) (s : St)
    (status : (put f bytes s).usefull = letterA) :
    (put f bytes s).clock = readClock (put f bytes s).mem := by
  rw [put, checkStatus_usefull] at status
  rw [put, checkStatus]
  dsimp only
  rw [if_pos status]

theorem puts_clock {cs : List (Field × List UInt8)} (some : cs ≠ []) (s : St)
    (status : (puts cs s).usefull = letterA) : (puts cs s).clock = readClock (puts cs s).mem := by
  obtain ⟨front, c, rfl⟩ := (List.eq_nil_or_concat cs).resolve_left some
  have last : puts (front.concat c) s = put c.1 c.2 (puts front s) := by
    rw [List.concat_eq_append, puts, List.foldl_append]
    rfl
  rw [last] at status ⊢
  exact put_clock c.1 c.2 (puts front s) status

/-- A call that has stored fields and seen the status `A` leaves a clock that is eight hours
ahead of the time and date in the arrays just when the hour is below 16 and the year has
two digits. -/
theorem get_gps_local {s s' : St} {c : Civil} {fraction : List UInt8}
    (delivered : s.mem isGetData ≠ 0) (run : getGps s = some s')
    (stored : sentenceCopies (buffer s) ≠ []) (status : s'.usefull = letterA)
    (received : Received s'.mem c fraction) (valid : c.Valid)
    (century : 2000 ≤ c.date.year ∧ c.date.year < 2100) :
    Local s'.clock c ↔ c.hour < 16 ∧ 2010 ≤ c.date.year := by
  have clock : s'.clock = readClock s'.mem := by
    obtain ⟨-, eq⟩ | ⟨-, eq⟩ := getGps_eq s delivered
    · obtain rfl := Option.some.inj (run.symm.trans eq)
      exact puts_clock stored _ status
    · rw [run] at eq
      cases eq
  rw [clock, readClock_received received valid]
  exact local_iff valid century

def newYearsEve : String := "$GPRMC,161229,A,3723.2,N,12158.3,W,0,3,311218,\n"

def eveCivil : Civil := ⟨⟨2018, 12, 31⟩, 16, 12, 29⟩

theorem eveCivil_valid : eveCivil.Valid := by
  refine ⟨⟨?_, ?_, ?_, ?_⟩, ?_, ?_, ?_⟩ <;> decide

theorem newYearsEve_run : ∃ s', getGps (delivered newYearsEve) = some s' ∧
    s'.usefull = letterA ∧ Received s'.mem eveCivil [] := by
  have seen : (getGps (delivered newYearsEve)).map (fun s => (s.usefull,
      cstr (slice s.mem 82 11), cstr (slice s.mem 121 11))) =
      some (letterA, rmcTime eveCivil, rmcDate eveCivil.date) := by decide +kernel
  cases run : getGps (delivered newYearsEve) with
  | none =>
    rw [run] at seen
    cases seen
  | some s' =>
    rw [run, Option.map_some] at seen
    obtain ⟨status, time, date⟩ := by simpa using seen
    refine ⟨s', rfl, status, ?_, date, by simp⟩
    rw [time, List.append_nil]

theorem get_gps_local_one : ∃ s', getGps (delivered newYearsEve) = some s' ∧
    (Local s'.clock eveCivil ↔ eveCivil.hour < 16 ∧ 2010 ≤ eveCivil.date.year) := by
  obtain ⟨s', run, status, received⟩ := newYearsEve_run
  exact ⟨s', run, get_gps_local (by decide) run (by decide +kernel) status received eveCivil_valid
    (by decide)⟩

/-- The clock says 24 o'clock on the old year's last day. -/
theorem get_gps_past_midnight :
    eveCivil.Valid ∧ addHours 8 eveCivil = ⟨⟨2019, 1, 1⟩, 0, 12, 29⟩ ∧
      (getGps (delivered newYearsEve)).map St.clock = some ⟨18, 12, 31, 24, 12, 29⟩ ∧
      ¬ Local ⟨18, 12, 31, 24, 12, 29⟩ eveCivil := by
  refine ⟨eveCivil_valid, by decide, by decide +kernel, ?_⟩
  rintro ⟨same, -⟩
  exact absurd same (by decide)

end Call

end BoxFirmware.GetGps
