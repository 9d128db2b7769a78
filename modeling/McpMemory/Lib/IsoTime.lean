import Mathlib.Data.List.Basic
import Mathlib.Data.String.Basic
import Mathlib.Order.Interval.Finset.Nat
import Mathlib.Tactic.IntervalCases

/-! `datetime` as Python has it, with the proleptic Gregorian calendar, an offset from UTC or
none, and the text of `isoformat`. Such texts are in the order of what the clocks show, and only
where that is the same in the order of what follows it. -/
namespace McpMemory.IsoTime

section
variable {α β : Type}

theorem appendLt [LinearOrder β] {p q x y : List β} (size : p.length = q.length) :
    p ++ x < q ++ y ↔ p < q ∨ p = q ∧ x < y := by
  induction p generalizing q with
  | nil =>
    obtain rfl : q = [] := List.length_eq_zero_iff.mp size.symm
    simp
  | cons first rest ih =>
    cases q with
    | nil => cases size
    | cons other others =>
      simp only [List.cons_append,List.cons_lt_cons_iff,List.cons.injEq,ih (Nat.succ.inj size)]
      tauto

theorem placeLt {bound n m x y : Nat} (left : x < bound) (right : y < bound) :
    n * bound + x < m * bound + y ↔ n < m ∨ n = m ∧ x < y := by
  rcases Nat.lt_trichotomy n m with lt | rfl | gt
  · have step : (n + 1) * bound ≤ m * bound := Nat.mul_le_mul_right _ lt
    rw [Nat.succ_mul] at step
    exact ⟨fun _ => .inl lt,fun _ => by omega⟩
  · simp
  · have step : (m + 1) * bound ≤ n * bound := Nat.mul_le_mul_right _ gt
    rw [Nat.succ_mul] at step
    constructor <;> intro less <;> omega

theorem placeEq {bound n m x y : Nat} (left : x < bound) (right : y < bound) :
    n * bound + x = m * bound + y ↔ n = m ∧ x = y := by
  have less := @placeLt bound n m x y left right
  have more := @placeLt bound m n y x right left
  omega

/- Texts of one length that are in the order of the numbers they tell. -/
structure Tells (text : α → List Char) (number : α → Nat) : Prop where
  size : ∀ a b, (text a).length = (text b).length
  lt : ∀ a b, text a < text b ↔ number a < number b
  eq : ∀ a b, text a = text b ↔ number a = number b

theorem tellsCons {text : α → List Char} {number} (tells : Tells text number) (c : Char) :
    Tells (fun a => c :: text a) number where
  size a b := congrArg Nat.succ (tells.size a b)
  lt a b := by simp [tells.lt a b]
  eq a b := by simp [tells.eq a b]

theorem tellsAppend {text rest : α → List Char} {number other} (tells : Tells text number) (follows : Tells rest other)
    {bound : Nat} (small : ∀ a, other a < bound) : Tells (fun a => text a ++ rest a) fun a => number a * bound + other a where
  size a b := by simp [tells.size a b,follows.size a b]
  lt a b := by rw [appendLt (tells.size a b),tells.lt,tells.eq,follows.lt,placeLt (small a) (small b)]
  eq a b := by
    rw [List.append_eq_append_iff_of_size_eq_left (tells.size a b),tells.eq,follows.eq,placeEq (small a) (small b)]

end

def digit (n : Nat) : Char := Char.ofNat (48 + n % 10)

/- `n` in so many decimal digits, the last ones where it has more. -/
def digits : Nat → Nat → List Char
  | 0,_ => []
  | width + 1,n => digits width (n / 10) ++ [digit n]

section
variable {α : Type}

theorem tellsDigit (number : α → Nat) : Tells (fun a => [digit (number a)]) fun a => number a % 10 := by
  have small : ∀ n, n % 10 < 10 := fun n => Nat.mod_lt n (by decide)
  have lt : ∀ a < 10, ∀ b < 10, Char.ofNat (48 + a) < Char.ofNat (48 + b) ↔ a < b := by decide
  have eq : ∀ a < 10, ∀ b < 10, Char.ofNat (48 + a) = Char.ofNat (48 + b) ↔ a = b := by decide
  refine ⟨fun _ _ => rfl,fun a b => ?_,fun a b => ?_⟩
  · simpa [digit,List.cons_lt_cons_iff] using lt _ (small (number a)) _ (small (number b))
  · simpa [digit] using eq _ (small (number a)) _ (small (number b))

theorem tellsDigits (width : Nat) (number : α → Nat) (fits : ∀ a, number a < 10 ^ width) :
    Tells (fun a => digits width (number a)) number := by
  induction width generalizing number with
  | zero =>
    have zero : ∀ a, number a = 0 := fun a => Nat.lt_one_iff.mp (fits a)
    exact ⟨fun _ _ => rfl,fun a b => by simp [zero,digits],fun a b => by simp [zero,digits]⟩
  | succ width ih =>
    have tells := tellsAppend (ih (fun a => number a / 10) fun a => Nat.div_lt_of_lt_mul (by
      rw [← Nat.pow_succ']
      exact fits a)) (tellsDigit number) fun a => Nat.mod_lt (number a) (by decide : 0 < 10)
    have whole : (fun a => number a / 10 * 10 + number a % 10) = number := funext fun a => Nat.div_add_mod' (number a) 10
    rw [whole] at tells
    exact tells

end

/- The calendar. -/

def isLeap (year : Nat) : Bool := year % 4 == 0 && (year % 100 != 0 || year % 400 == 0)

def daysInMonth (year month : Nat) : Nat :=
  if month = 2 && isLeap year then 29 else [31,28,31,30,31,30,31,31,30,31,30,31].getD (month - 1) 0

def daysBeforeYear (year : Nat) : Nat :=
  (year - 1) * 365 + (year - 1) / 4 - (year - 1) / 100 + (year - 1) / 400

def daysBeforeMonth (year month : Nat) : Nat :=
  [0,31,59,90,120,151,181,212,243,273,304,334].getD (month - 1) 0 + if 2 < month && isLeap year then 1 else 0

structure DateTime where
  year : Nat
  month : Nat
  day : Nat
  hour : Nat
  minute : Nat
  second : Nat
  microsecond : Nat
  /- in microseconds -/
  offset : Option Int
  years : 1 ≤ year ∧ year ≤ 9999
  months : 1 ≤ month ∧ month ≤ 12
  days : 1 ≤ day ∧ day ≤ daysInMonth year month
  times : hour < 24 ∧ minute < 60 ∧ second < 60 ∧ microsecond < 1000000
  offsets : ∀ shift ∈ offset, -86400000000 < shift ∧ shift < 86400000000

def toOrdinal (year month day : Nat) : Nat := daysBeforeYear year + daysBeforeMonth year month + day

def wallSeconds (d : DateTime) : Nat :=
  ((toOrdinal d.year d.month d.day * 24 + d.hour) * 60 + d.minute) * 60 + d.second

/- What the clock on the wall shows, in microseconds. -/
def wall (d : DateTime) : Int := wallSeconds d * 1000000 + d.microsecond

theorem leapYear (year : Nat) (there : 1 ≤ year) :
    daysBeforeYear (year + 1) = daysBeforeYear year + 365 + if isLeap year then 1 else 0 := by
  obtain ⟨before,rfl⟩ : ∃ before, year = before + 1 := ⟨year - 1,by omega⟩
  have centuries : before / 100 ≤ before / 4 := Nat.div_le_div_left (by decide) (by decide)
  have next (bound : Nat) : (before + 1) / bound = before / bound + if (before + 1) % bound = 0 then 1 else 0 := by
    simp only [Nat.succ_div,Nat.dvd_iff_mod_eq_zero]
  unfold daysBeforeYear isLeap
  rw [Nat.add_sub_cancel,Nat.add_sub_cancel,next 4,next 100,next 400]
  by_cases four : (before + 1) % 4 = 0
  · by_cases hundred : (before + 1) % 100 = 0
    · by_cases last : (before + 1) % 400 = 0
      · simp only [four,hundred,last]
        simp
        omega
      · simp [four,hundred,last]
        omega
    · have last : ¬ (before + 1) % 400 = 0 := by omega
      simp [four,hundred,last]
      omega
  · have hundred : ¬ (before + 1) % 100 = 0 := by omega
    have last : ¬ (before + 1) % 400 = 0 := by omega
    simp [four,hundred,last]
    omega

theorem yearBefore {year later : Nat} (there : 1 ≤ year) (lt : year < later) :
    daysBeforeYear year + 365 + (if isLeap year then 1 else 0) ≤ daysBeforeYear later := by
  induction later, lt using Nat.le_induction with
  | base => exact (leapYear year there).ge
  | succ later le ih =>
    have step := leapYear later (by omega)
    omega

theorem monthStep {year month : Nat} (there : 1 ≤ month) (bound : month ≤ 12) :
    daysBeforeMonth year month + daysInMonth year month ≤ 365 + (if isLeap year then 1 else 0) ∧
      (month < 12 → daysBeforeMonth year month + daysInMonth year month = daysBeforeMonth year (month + 1)) := by
  unfold daysBeforeMonth daysInMonth
  cases isLeap year <;> interval_cases month <;> decide

theorem monthBefore {year month later : Nat} (there : 1 ≤ month) (lt : month < later) (bound : later ≤ 12) :
    daysBeforeMonth year month + daysInMonth year month ≤ daysBeforeMonth year later := by
  induction later, lt using Nat.le_induction with
  | base => exact ((@monthStep year month there (by omega)).2 (by omega)).le
  | succ later le ih =>
    have before := ih (by omega)
    have step := (@monthStep year later (by omega) (by omega)).2 (by omega)
    omega

theorem ordinalBefore {d e : DateTime} (lt : d.year < e.year ∨ d.year = e.year ∧ (d.month < e.month ∨
    d.month = e.month ∧ d.day < e.day)) : toOrdinal d.year d.month d.day < toOrdinal e.year e.month e.day := by
  have fits := (@monthStep d.year d.month d.months.1 d.months.2).1
  have day := d.days
  have other := e.days
  unfold toOrdinal
  rcases lt with lt | ⟨year,lt | ⟨month,lt⟩⟩
  · have before := yearBefore d.years.1 lt
    omega
  · have before := @monthBefore d.year d.month e.month d.months.1 lt e.months.2
    rw [← year]
    omega
  · rw [← year,← month]
    omega

/- Two times are in the order of their years, months and so on to the seconds. -/

def clockNumber (d : DateTime) : Nat :=
  ((((d.year * 100 + d.month) * 100 + d.day) * 100 + d.hour) * 100 + d.minute) * 100 + d.second

theorem daysShort {year month : Nat} (bound : month ≤ 12) : daysInMonth year month < 100 := by
  unfold daysInMonth
  cases isLeap year <;> interval_cases month <;> decide

structure Small (d : DateTime) : Prop where
  month : d.month < 100
  day : d.day < 100
  hour : d.hour < 100
  minute : d.minute < 100
  second : d.second < 100

theorem small (d : DateTime) : Small d := by
  have months := d.months
  have days := d.days.2.trans_lt (@daysShort d.year d.month d.months.2)
  have times := d.times
  constructor <;> omega

theorem clockNumberLt {d e : DateTime} (lt : clockNumber d < clockNumber e) :
    (d.year < e.year ∨ d.year = e.year ∧ (d.month < e.month ∨ d.month = e.month ∧ d.day < e.day)) ∨
      (d.year = e.year ∧ d.month = e.month ∧ d.day = e.day) ∧ (d.hour < e.hour ∨ d.hour = e.hour ∧
        (d.minute < e.minute ∨ d.minute = e.minute ∧ d.second < e.second)) := by
  have left := small d
  have right := small e
  simp only [clockNumber,placeLt left.second right.second,placeLt left.minute right.minute,placeLt left.hour right.hour,
    placeLt left.day right.day,placeLt left.month right.month,placeEq left.minute right.minute,
    placeEq left.hour right.hour,placeEq left.day right.day,placeEq left.month right.month] at lt
  tauto

theorem secondsLt {d e : DateTime} (lt : clockNumber d < clockNumber e) : wallSeconds d < wallSeconds e := by
  have left := d.times
  have right := e.times
  unfold wallSeconds
  rcases clockNumberLt lt with before | ⟨⟨year,month,day⟩,later⟩
  · have ordinal := ordinalBefore before
    omega
  · rw [year,month,day]
    omega

theorem clockNumberSame {d e : DateTime} (same : clockNumber d = clockNumber e) : wallSeconds d = wallSeconds e := by
  have left := small d
  have right := small e
  simp only [clockNumber,placeEq left.second right.second,placeEq left.minute right.minute,placeEq left.hour right.hour,
    placeEq left.day right.day,placeEq left.month right.month] at same
  obtain ⟨⟨⟨⟨⟨year,month⟩,day⟩,hour⟩,minute⟩,second⟩ := same
  unfold wallSeconds
  rw [year,month,day,hour,minute,second]

theorem secondsOrder {d e : DateTime} : (clockNumber d < clockNumber e ↔ wallSeconds d < wallSeconds e) ∧
    (clockNumber d = clockNumber e ↔ wallSeconds d = wallSeconds e) := by
  rcases Nat.lt_trichotomy (clockNumber d) (clockNumber e) with lt | same | gt
  · have less := secondsLt lt
    exact ⟨⟨fun _ => less,fun _ => lt⟩,by omega⟩
  · have equal := clockNumberSame same
    exact ⟨by omega,⟨fun _ => equal,fun _ => same⟩⟩
  · have more := secondsLt gt
    exact ⟨by omega,by omega⟩

/- The text. -/

def clockText (d : DateTime) : List Char :=
  digits 4 d.year ++ ('-' :: digits 2 d.month) ++ ('-' :: digits 2 d.day) ++ ('T' :: digits 2 d.hour) ++
    (':' :: digits 2 d.minute) ++ (':' :: digits 2 d.second)

def fractionText (microsecond : Nat) : List Char := if microsecond = 0 then [] else '.' :: digits 6 microsecond

def secondsText (second microsecond : Nat) : List Char :=
  if second = 0 ∧ microsecond = 0 then [] else ':' :: digits 2 second ++ fractionText microsecond

def shiftText (shift : Int) : List Char :=
  let seconds := shift.natAbs / 1000000
  (if shift < 0 then '-' else '+') :: (digits 2 (seconds / 3600) ++ (':' :: (digits 2 (seconds / 60 % 60) ++
    secondsText (seconds % 60) (shift.natAbs % 1000000))))

def offsetText : Option Int → List Char
  | none => []
  | some shift => shiftText shift

def isoformat (d : DateTime) : String :=
  String.ofList (clockText d ++ (fractionText d.microsecond ++ offsetText d.offset))

theorem tellsClock : Tells clockText clockNumber := by
  have years := tellsDigits 4 DateTime.year fun d => by have := d.years; omega
  have months := tellsCons (tellsDigits 2 DateTime.month fun d => (small d).month) '-'
  have days := tellsCons (tellsDigits 2 DateTime.day fun d => (small d).day) '-'
  have hours := tellsCons (tellsDigits 2 DateTime.hour fun d => (small d).hour) 'T'
  have minutes := tellsCons (tellsDigits 2 DateTime.minute fun d => (small d).minute) ':'
  have seconds := tellsCons (tellsDigits 2 DateTime.second fun d => (small d).second) ':'
  exact tellsAppend (tellsAppend (tellsAppend (tellsAppend (tellsAppend years months fun d => (small d).month) days
    fun d => (small d).day) hours fun d => (small d).hour) minutes fun d => (small d).minute) seconds
    fun d => (small d).second

theorem digitsLt {width n m : Nat} (left : n < 10 ^ width) (right : m < 10 ^ width) {x y : List Char} :
    digits width n ++ x < digits width m ++ y ↔ n < m ∨ n = m ∧ x < y := by
  let pair : Bool → Nat := fun first => if first then n else m
  have tells := tellsDigits width pair fun first => by cases first <;> assumption
  have size : (digits width n).length = (digits width m).length := tells.size true false
  have lt : digits width n < digits width m ↔ n < m := tells.lt true false
  have eq : digits width n = digits width m ↔ n = m := tells.eq true false
  rw [appendLt size,lt,eq]

/- The text of an offset that is not UTC's comes after UTC's. -/
theorem offsetLater {offset : Option Int} (bound : ∀ shift ∈ offset, -86400000000 < shift ∧ shift < 86400000000) :
    shiftText 0 < offsetText offset ↔ offset.getD 0 ≠ 0 := by
  cases offset with
  | none => simp [offsetText]
  | some shift =>
    have bound := bound shift rfl
    rw [Option.getD_some]
    rcases lt_trichotomy shift 0 with negative | rfl | positive
    · have first : shiftText 0 < shiftText shift := by
        unfold shiftText
        rw [if_neg (lt_irrefl 0),if_pos negative]
        exact List.cons_lt_cons_iff.mpr (.inl (by decide))
      exact ⟨fun _ => negative.ne,fun _ => first⟩
    · exact ⟨fun less => absurd less (lt_irrefl _),fun apart => absurd rfl apart⟩
    · refine ⟨fun _ => positive.ne',fun _ => ?_⟩
      have zero : shiftText 0 = '+' :: (digits 2 0 ++ (':' :: (digits 2 0 ++ []))) := rfl
      have hours : shift.natAbs / 1000000 / 3600 < 10 ^ 2 := by omega
      have minutes : shift.natAbs / 1000000 / 60 % 60 < 10 ^ 2 := by omega
      have ahead : offsetText (some shift) = '+' :: (digits 2 (shift.natAbs / 1000000 / 3600) ++ (':' ::
          (digits 2 (shift.natAbs / 1000000 / 60 % 60) ++
            secondsText (shift.natAbs / 1000000 % 60) (shift.natAbs % 1000000)))) := by
        unfold offsetText shiftText
        dsimp only
        rw [if_neg (not_lt_of_gt positive)]
      rw [zero,ahead,List.cons_lt_cons_iff]
      refine .inr ⟨rfl,(digitsLt (by decide) hours).mpr ?_⟩
      rcases Nat.eq_zero_or_pos (shift.natAbs / 1000000 / 3600) with none | some_
      · refine .inr ⟨none.symm,List.cons_lt_cons_iff.mpr (.inr ⟨rfl,(digitsLt (by decide) minutes).mpr ?_⟩)⟩
        rcases Nat.eq_zero_or_pos (shift.natAbs / 1000000 / 60 % 60) with none' | some_
        · refine .inr ⟨none'.symm,?_⟩
          unfold secondsText
          rw [if_neg (by omega)]
          exact List.nil_lt_cons _ _
        · exact .inl some_
      · exact .inl some_

theorem offsetSmall {offset : Option Int} {rest : List Char} : offsetText offset < '.' :: rest := by
  cases offset with
  | none => exact List.nil_lt_cons _ _
  | some shift =>
    refine List.cons_lt_cons_iff.mpr (.inl ?_)
    split <;> decide

/- What follows the seconds. -/
theorem restLater {microsecond other : Nat} {offset : Option Int} (left : microsecond < 1000000) (right : other < 1000000)
    (bound : ∀ shift ∈ offset, -86400000000 < shift ∧ shift < 86400000000) :
    fractionText microsecond ++ shiftText 0 < fractionText other ++ offsetText offset ↔
      microsecond < other ∨ microsecond = other ∧ offset.getD 0 ≠ 0 := by
  unfold fractionText
  by_cases whole : microsecond = 0
  · by_cases whole' : other = 0
    · simpa [whole,whole'] using offsetLater bound
    · rw [if_pos whole,if_neg whole']
      refine iff_of_true ?_ (.inl (by omega))
      exact @offsetSmall (some 0) _
  · rw [if_neg whole]
    by_cases whole' : other = 0
    · rw [if_pos whole']
      refine iff_of_false (not_lt_of_gt ?_) (by omega)
      exact offsetSmall
    · rw [if_neg whole',List.cons_append,List.cons_append,List.cons_lt_cons_iff]
      have six := @digitsLt 6 microsecond other left right (shiftText 0) (offsetText offset)
      rw [offsetLater bound] at six
      simpa using six

theorem isoLater {now d : DateTime} (utc : now.offset = some 0) :
    isoformat now < isoformat d ↔ wall now < wall d ∨ wall now = wall d ∧ d.offset.getD 0 ≠ 0 := by
  have left := now.times.2.2.2
  have right := d.times.2.2.2
  have rest := restLater left right d.offsets
  unfold isoformat
  rw [String.lt_iff_toList_lt,String.toList_ofList,String.toList_ofList,appendLt (tellsClock.size now d),tellsClock.lt,
    tellsClock.eq,secondsOrder.1,secondsOrder.2,utc]
  change wallSeconds now < wallSeconds d ∨ wallSeconds now = wallSeconds d ∧
    fractionText now.microsecond ++ shiftText 0 < fractionText d.microsecond ++ offsetText d.offset ↔ _
  rw [rest]
  unfold wall
  omega

/- Such a text read back. `datetime.fromisoformat` takes others as well. -/

def readDigit (c : Char) : Option Nat := if '0' ≤ c ∧ c ≤ '9' then some (c.toNat - 48) else none

def readDigits : Nat → List Char → Option (Nat × List Char)
  | 0,text => some (0,text)
  | width + 1,text => match readDigits width text with
    | some (number,c::rest) => (readDigit c).map fun last => (10 * number + last,rest)
    | _ => none

def readAfter (separator : Char) (width : Nat) : List Char → Option (Nat × List Char)
  | [] => none
  | c::rest => if c = separator then readDigits width rest else none

def readFraction : List Char → Option (Nat × List Char)
  | '.' :: rest => readDigits 6 rest
  | rest => some (0,rest)

def readSeconds : List Char → Option Nat
  | [] => some 0
  | text => do
    let (second,rest) ← readAfter ':' 2 text
    let (microsecond,rest) ← readFraction rest
    if rest.isEmpty then some (second * 1000000 + microsecond) else none

def readShift (text : List Char) : Option Nat := do
  let (hour,rest) ← readDigits 2 text
  let (minute,rest) ← readAfter ':' 2 rest
  let seconds ← readSeconds rest
  some ((hour * 60 + minute) * 60000000 + seconds)

def readOffset : List Char → Option (Option Int)
  | [] => some none
  | c::rest =>
    if c = '+' then (readShift rest).map fun shift => some (Int.ofNat shift)
    else if c = '-' then (readShift rest).map fun shift => some (-Int.ofNat shift)
    else none

def read (text : String) : Option DateTime := do
  let (year,rest) ← readDigits 4 text.toList
  let (month,rest) ← readAfter '-' 2 rest
  let (day,rest) ← readAfter '-' 2 rest
  let (hour,rest) ← readAfter 'T' 2 rest
  let (minute,rest) ← readAfter ':' 2 rest
  let (second,rest) ← readAfter ':' 2 rest
  let (microsecond,rest) ← readFraction rest
  let offset ← readOffset rest
  if valid : (1 ≤ year ∧ year ≤ 9999) ∧ (1 ≤ month ∧ month ≤ 12) ∧ (1 ≤ day ∧ day ≤ daysInMonth year month) ∧
      (hour < 24 ∧ minute < 60 ∧ second < 60 ∧ microsecond < 1000000) ∧
      ∀ shift ∈ offset, -86400000000 < shift ∧ shift < 86400000000 then
    some ⟨year,month,day,hour,minute,second,microsecond,offset,valid.1,valid.2.1,valid.2.2.1,valid.2.2.2.1,valid.2.2.2.2⟩
  else none

theorem readDigitsBack {width n : Nat} (fits : n < 10 ^ width) (rest : List Char) :
    readDigits width (digits width n ++ rest) = some (n,rest) := by
  induction width generalizing n rest with
  | zero =>
    obtain rfl := Nat.lt_one_iff.mp fits
    rfl
  | succ width ih =>
    have digit_ : ∀ a < 10, readDigit (Char.ofNat (48 + a)) = some a := by decide
    have before := @ih (n / 10) (Nat.div_lt_of_lt_mul (by rwa [← Nat.pow_succ'])) (digit n :: rest)
    unfold digits readDigits
    rw [List.append_assoc,List.singleton_append,before]
    dsimp only
    rw [digit,digit_ _ (Nat.mod_lt _ (by decide)),Option.map_some,Nat.div_add_mod]

theorem readAfterBack {separator : Char} {width n : Nat} (fits : n < 10 ^ width) (rest : List Char) :
    readAfter separator width ((separator :: digits width n) ++ rest) = some (n,rest) :=
  (if_pos rfl).trans (readDigitsBack fits rest)

theorem readFractionBack {microsecond : Nat} (fits : microsecond < 1000000) {rest : List Char}
    (ends : ∀ c, rest.head? = some c → c ≠ '.') : readFraction (fractionText microsecond ++ rest) = some (microsecond,rest) := by
  unfold fractionText
  split
  · rename_i whole
    rw [whole,List.nil_append]
    cases rest with
    | nil => rfl
    | cons c rest =>
      unfold readFraction
      split
      · rename_i same
        exact absurd (List.cons.inj same).1 (ends c rfl)
      · rfl
  · exact @readDigitsBack 6 microsecond fits rest

theorem readSecondsBack {second microsecond : Nat} (left : second < 60) (right : microsecond < 1000000) :
    readSeconds (secondsText second microsecond) = some (second * 1000000 + microsecond) := by
  unfold secondsText
  split
  · rename_i none
    rw [none.1,none.2]
    rfl
  · have after := @readAfterBack ':' 2 second (by omega) (fractionText microsecond)
    have fraction := @readFractionBack microsecond right [] nofun
    rw [List.append_nil] at fraction
    unfold readSeconds
    rw [List.cons_append] at after ⊢
    simp only [after,fraction,bind,Option.bind]
    rfl

theorem readOffsetBack {offset : Option Int} (bound : ∀ shift ∈ offset, -86400000000 < shift ∧ shift < 86400000000) :
    readOffset (offsetText offset) = some offset := by
  cases offset with
  | none => rfl
  | some shift =>
    have bound := bound shift rfl
    have hours := @readDigitsBack 2 (shift.natAbs / 1000000 / 3600) (by omega) (':' :: (digits 2
      (shift.natAbs / 1000000 / 60 % 60) ++ secondsText (shift.natAbs / 1000000 % 60) (shift.natAbs % 1000000)))
    have minutes := @readAfterBack ':' 2 (shift.natAbs / 1000000 / 60 % 60) (by omega)
      (secondsText (shift.natAbs / 1000000 % 60) (shift.natAbs % 1000000))
    have seconds := @readSecondsBack (shift.natAbs / 1000000 % 60) (shift.natAbs % 1000000) (Nat.mod_lt _ (by decide))
      (Nat.mod_lt _ (by decide))
    rw [List.cons_append] at minutes
    have whole : (shift.natAbs / 1000000 / 3600 * 60 + shift.natAbs / 1000000 / 60 % 60) * 60000000 +
        (shift.natAbs / 1000000 % 60 * 1000000 + shift.natAbs % 1000000) = shift.natAbs := by omega
    have read : readShift (digits 2 (shift.natAbs / 1000000 / 3600) ++ (':' :: (digits 2 (shift.natAbs / 1000000 / 60 % 60) ++
        secondsText (shift.natAbs / 1000000 % 60) (shift.natAbs % 1000000)))) = some shift.natAbs := by
      unfold readShift
      simp only [hours,minutes,seconds,bind,Option.bind,whole]
    unfold offsetText shiftText readOffset
    dsimp only
    rw [read]
    split
    · rename_i negative
      rw [if_neg (by decide),if_pos rfl,Option.map_some]
      refine congrArg (fun shift => some (some shift)) ?_
      rw [Int.ofNat_eq_natCast]
      omega
    · rename_i positive
      rw [if_pos rfl,Option.map_some]
      refine congrArg (fun shift => some (some shift)) ?_
      rw [Int.ofNat_eq_natCast]
      omega

theorem offsetHead {offset : Option Int} : ∀ c, (offsetText offset).head? = some c → c ≠ '.' := by
  intro c first
  cases offset with
  | none => cases first
  | some shift =>
    cases Option.some.inj first
    split <;> decide

theorem readBack (d : DateTime) : read (isoformat d) = some d := by
  have fields := small d
  have year := @readDigitsBack 4 d.year (by have := d.years; omega)
  have month := @readAfterBack '-' 2 d.month fields.month
  have day := @readAfterBack '-' 2 d.day fields.day
  have hour := @readAfterBack 'T' 2 d.hour fields.hour
  have minute := @readAfterBack ':' 2 d.minute fields.minute
  have second := @readAfterBack ':' 2 d.second fields.second
  have microsecond := @readFractionBack d.microsecond d.times.2.2.2 (offsetText d.offset) offsetHead
  have offset := readOffsetBack d.offsets
  unfold read isoformat clockText
  simp only [String.toList_ofList,List.append_assoc,year,month,day,hour,minute,second,microsecond,offset,bind,Option.bind]
  exact dif_pos ⟨d.years,d.months,d.days,d.times,d.offsets⟩

example : (read "2026-03-01T00:30:00.250000-02:30").map isoformat = some "2026-03-01T00:30:00.250000-02:30" := by
  decide +kernel

end McpMemory.IsoTime
