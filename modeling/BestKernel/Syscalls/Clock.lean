import BestKernel.Library.Promotion
import BestKernel.Library.Words
import Mathlib.Algebra.GroupWithZero.Nat

/-!
# The clock

`gettime_nanos` and `gettime_epoch` convert a reading of the firmware clock.  They multiply
fields of eight and sixteen bits by decimal literals, so most of their products have the
type `int` and do not fit it.

`gettimeNanos_exact_iff` says that the nanoseconds of the day come out right in its first
three seconds only: later a product of `int`s overflows, or a minute counts for ten.
`gettimeEpoch_undefined` says that the product of the years overflows for every date from
the epoch on.  `clocks_right_iff` puts both together for two readings.

Readings of the source.  The plural names of the fields are those of `struct rtc_time`,
`hours->*60*60` is `hours*60*60`, and the weeks, which no reading has, are a parameter.
-/

namespace BestKernel
namespace Syscalls

open Machine
open Promotion

/-- `struct rtc_time`, as far as it is converted. -/
structure RtcTime where
  year : BitVec 16
  month : Byte
  day : Byte
  hour : Byte
  minute : Byte
  second : Byte
  nanosecond : Half
deriving DecidableEq, Repr

section Conversions

/-- What `gettime_nanos` adds up. -/
def nanosSum (r : RtcTime) : Arith :=
  .short r.hour * 3600 * 1000000000 + .short r.minute * 60 * 10000000000 +
    .short r.second * 1000000000 + .unsignedInt r.nanosecond

/-- `gettime_nanos`, from the start of the day. -/
def gettimeNanos (r : RtcTime) : Option Word := (nanosSum r).toWord

variable (weeks : RtcTime → Byte)

/-- What `gettime_epoch` adds up. -/
def epochSum (r : RtcTime) : Arith :=
  .short r.day * 86400 + .short r.minute * 60 + .short r.hour * 60 * 60 +
    (.short r.year * 365 + .short r.year / 4) * 86400 + .short r.month * 30 * 86400 +
    .short (weeks r) * 7 * 86400

/-- `gettime_epoch`, in seconds. -/
def gettimeEpoch (r : RtcTime) : Option Word := (epochSum weeks r).toWord

end Conversions

section Specification

def isLeap (year : Nat) : Bool := year % 4 = 0 && (year % 100 != 0 || year % 400 = 0)

def monthDays (year month : Nat) : Nat :=
  if month = 2 then if isLeap year then 29 else 28
  else if month = 4 ∨ month = 6 ∨ month = 9 ∨ month = 11 then 30
  else 31

namespace RtcTime

variable (r : RtcTime)

/-- The time of day is one, and so is the date. -/
structure Valid : Prop where
  hour : r.hour.toNat < 24
  minute : r.minute.toNat < 60
  second : r.second.toNat < 60
  nanosecond : r.nanosecond.toNat < 10 ^ 9
  month : 1 ≤ r.month.toNat ∧ r.month.toNat ≤ 12
  day : 1 ≤ r.day.toNat ∧ r.day.toNat ≤ monthDays r.year.toNat r.month.toNat

/-- The nanoseconds since midnight. -/
def exactNanos : Nat :=
  ((r.hour.toNat * 60 + r.minute.toNat) * 60 + r.second.toNat) * 10 ^ 9 + r.nanosecond.toNat

/-- The days before the date, and itself, in the calendar. -/
def dayNumber : Nat :=
  ((List.range r.year.toNat).map fun year => if isLeap year then 366 else 365).sum +
    ((List.range' 1 (r.month.toNat - 1)).map (monthDays r.year.toNat)).sum + r.day.toNat

/-- The nanoseconds before the reading, in the calendar. -/
def instant : Nat := r.dayNumber * (86400 * 10 ^ 9) + r.exactNanos

def SameDay (r r' : RtcTime) : Prop := r.year = r'.year ∧ r.month = r'.month ∧ r.day = r'.day

/-- The date is 16 September 2019 or later. -/
def FromEpoch : Prop :=
  2019 < r.year.toNat ∨ r.year.toNat = 2019 ∧
    (9 < r.month.toNat ∨ r.month.toNat = 9 ∧ 16 ≤ r.day.toNat)

/-- The second reading is at least a second later. -/
def SecondBefore (r r' : RtcTime) : Prop := r.instant + 10 ^ 9 ≤ r'.instant

/-- The first three seconds of a day. -/
def Early : Prop := r.hour.toNat = 0 ∧ r.minute.toNat = 0 ∧ r.second.toNat ≤ 2

/-- `gettime_nanos` is exact. -/
def NanosExact : Prop := ∃ n, gettimeNanos r = some n ∧ n.toNat = r.exactNanos

end RtcTime

/-- The conversion is defined for both readings, and larger for the second. -/
def Increases (convert : RtcTime → Option Word) (r r' : RtcTime) : Prop :=
  ∃ n n', convert r = some n ∧ convert r' = some n' ∧ n < n'

/-- What the conversions of two readings should do. -/
structure ClocksRight (weeks : RtcTime → Byte) (r r' : RtcTime) : Prop where
  exact : r.NanosExact ∧ r'.NanosExact
  day : r.SameDay r' → r.exactNanos < r'.exactNanos → Increases gettimeNanos r r'
  epoch : r.FromEpoch → r'.FromEpoch → r.SecondBefore r' → Increases (gettimeEpoch weeks) r r'

/-- Both readings are of the first three seconds of a day, and they are not of dates from
the epoch on with a second between them. -/
structure ClocksSafe (r r' : RtcTime) : Prop where
  early : r.Early ∧ r'.Early
  epoch : ¬ (r.FromEpoch ∧ r'.FromEpoch ∧ r.SecondBefore r')

end Specification

section Nanos

variable {r : RtcTime}

theorem hourTerm_zero
    (hhour : r.hour.toNat = 0) :
    (.short r.hour * 3600 * 1000000000 : Arith) = .number .int ((0 : Nat) : Int) := by
  rw [Arith.short, hhour]
  rfl

/-- An hour is more nanoseconds than an `int` holds. -/
theorem hourTerm_undefined
    (hhour : r.hour.toNat ≠ 0) :
    (.short r.hour * 3600 * 1000000000 : Arith) = .undefined := by
  have hlt := r.hour.isLt
  have hseconds : (.short r.hour * 3600 : Arith) =
      .number .int ((r.hour.toNat * 3600 : Nat) : Int) :=
    Arith.mul_eq (n := 3600) (by simp; omega) (by simp) (by simp; omega)
  rw [hseconds]
  exact Arith.mul_overflow (n := 1000000000) (by simp; omega) (by simp) rfl (by simp; omega)

theorem minuteTerm_eq (r : RtcTime) :
    (.short r.minute * 60 * 10000000000 : Arith) =
      .number .long ((r.minute.toNat * 60 * 10000000000 : Nat) : Int) := by
  have hlt := r.minute.isLt
  have hseconds : (.short r.minute * 60 : Arith) =
      .number .int ((r.minute.toNat * 60 : Nat) : Int) :=
    Arith.mul_eq (n := 60) (by simp; omega) (by simp) (by simp; omega)
  rw [hseconds]
  exact Arith.mul_eq (n := 10000000000) (by simp; omega) (by simp) (by simp; omega)

theorem secondTerm_eq
    (hsecond : r.second.toNat ≤ 2) :
    (.short r.second * 1000000000 : Arith) =
      .number .int ((r.second.toNat * 1000000000 : Nat) : Int) :=
  Arith.mul_eq (n := 1000000000) (by simp; omega) (by simp) (by simp; omega)

/-- Three seconds are more nanoseconds than an `int` holds. -/
theorem secondTerm_undefined
    (hsecond : ¬ r.second.toNat ≤ 2) :
    (.short r.second * 1000000000 : Arith) = .undefined := by
  have hlt := r.second.isLt
  exact Arith.mul_overflow (n := 1000000000) (by simp; omega) (by simp) rfl (by simp; omega)

/-- **What `gettime_nanos` computes**: minutes of ten minutes each, where no product
overflows. -/
theorem gettimeNanos_eq (r : RtcTime) :
    gettimeNanos r =
      if r.hour.toNat = 0 ∧ r.second.toNat ≤ 2 then
        some (BitVec.ofNat 64 (r.minute.toNat * 60 * 10000000000 + r.second.toNat * 1000000000 +
          r.nanosecond.toNat))
      else none := by
  have hminute := r.minute.isLt
  have hnano := r.nanosecond.isLt
  unfold gettimeNanos nanosSum
  rw [minuteTerm_eq]
  split_ifs with hfits
  · have hfirst : (.number .int ((0 : Nat) : Int) +
        .number .long ((r.minute.toNat * 60 * 10000000000 : Nat) : Int) : Arith) =
        .number .long ((0 + r.minute.toNat * 60 * 10000000000 : Nat) : Int) :=
      Arith.add_eq (by simp) (by simp; omega) (by simp; omega)
    have hsecond : (.number .long ((0 + r.minute.toNat * 60 * 10000000000 : Nat) : Int) +
        .number .int ((r.second.toNat * 1000000000 : Nat) : Int) : Arith) =
        .number .long ((0 + r.minute.toNat * 60 * 10000000000 + r.second.toNat * 1000000000 :
          Nat) : Int) :=
      Arith.add_eq (by simp; omega) (by simp; omega) (by simp; omega)
    have hthird : (.number .long ((0 + r.minute.toNat * 60 * 10000000000 +
          r.second.toNat * 1000000000 : Nat) : Int) + .unsignedInt r.nanosecond : Arith) =
        .number .long ((0 + r.minute.toNat * 60 * 10000000000 + r.second.toNat * 1000000000 +
          r.nanosecond.toNat : Nat) : Int) :=
      Arith.add_eq (by simp; omega) hnano (by simp; omega)
    rw [hourTerm_zero hfits.1, secondTerm_eq hfits.2, hfirst, hsecond, hthird,
      Arith.toWord_natCast, Nat.zero_add]
  · by_cases hhour : r.hour.toNat = 0
    · rw [secondTerm_undefined fun hle => hfits ⟨hhour, hle⟩]
      simp
    · rw [hourTerm_undefined hhour]
      simp

/-- **The first three seconds of a day are exact.** -/
theorem gettimeNanos_exact_iff (r : RtcTime) : r.NanosExact ↔ r.Early := by
  have hminute := r.minute.isLt
  have hnano := r.nanosecond.isLt
  unfold RtcTime.NanosExact RtcTime.exactNanos RtcTime.Early
  rw [gettimeNanos_eq]
  have hmod : r.second.toNat ≤ 2 →
      (r.minute.toNat * 60 * 10000000000 + r.second.toNat * 1000000000 +
        r.nanosecond.toNat) % 2 ^ 64 =
      r.minute.toNat * 60 * 10000000000 + r.second.toNat * 1000000000 + r.nanosecond.toNat :=
    fun hsecond => Nat.mod_eq_of_lt (by omega)
  constructor
  · rintro ⟨n, hnanos, hexact⟩
    split_ifs at hnanos with hfits
    have hvalue := congrArg BitVec.toNat (Option.some.inj hnanos)
    rw [BitVec.toNat_ofNat, hexact, hmod hfits.2] at hvalue
    have hmin : r.minute.toNat = 0 := by omega
    exact ⟨hfits.1, hmin, hfits.2⟩
  · rintro ⟨hhour, hmin, hsecond⟩
    rw [if_pos ⟨hhour, hsecond⟩]
    refine ⟨_, rfl, ?_⟩
    rw [BitVec.toNat_ofNat, hmod hsecond, hhour, hmin]
    omega

end Nanos

section Epoch

variable {r : RtcTime}

/-- **No date from the epoch on has a time in seconds**: its years overflow an `int`. -/
theorem gettimeEpoch_undefined
    (weeks : RtcTime → Byte)
    (hdate : r.FromEpoch) :
    gettimeEpoch weeks r = none := by
  have hlt := r.year.isLt
  have hyear : 2019 ≤ r.year.toNat := by
    rcases hdate with hlater | ⟨hsame, -⟩
    · exact Nat.le_of_lt hlater
    · exact Nat.le_of_eq hsame.symm
  have hdays : (.short r.year * 365 : Arith) =
      .number .int ((r.year.toNat * 365 : Nat) : Int) :=
    Arith.mul_eq (n := 365) (by simp; omega) (by simp) (by simp; omega)
  have hleap : (.short r.year / 4 : Arith) = .number .int ((r.year.toNat / 4 : Nat) : Int) :=
    Arith.div_eq (n := 4) (by simp; omega) (by simp) (by simp)
  have hsum : (.number .int ((r.year.toNat * 365 : Nat) : Int) +
        .number .int ((r.year.toNat / 4 : Nat) : Int) : Arith) =
      .number .int ((r.year.toNat * 365 + r.year.toNat / 4 : Nat) : Int) :=
    Arith.add_eq (by simp; omega) (by simp; omega) (by simp; omega)
  have hseconds : ((.short r.year * 365 + .short r.year / 4) * 86400 : Arith) = .undefined := by
    rw [hdays, hleap, hsum]
    exact Arith.mul_overflow (n := 86400) (by simp; omega) (by simp) rfl (by simp; omega)
  rw [gettimeEpoch, epochSum, hseconds]
  simp

end Epoch

/-- Exact times of one day increase. -/
theorem increases_of_exact
    {r r' : RtcTime}
    (hexact : r.NanosExact)
    (hexact' : r'.NanosExact)
    (hlt : r.exactNanos < r'.exactNanos) :
    Increases gettimeNanos r r' := by
  obtain ⟨n, hn, hvalue⟩ := hexact
  obtain ⟨n', hn', hvalue'⟩ := hexact'
  refine ⟨n, n', hn, hn', ?_⟩
  rw [BitVec.lt_def, hvalue, hvalue']
  exact hlt

/-- **When the conversions of two readings do what they should.** -/
theorem clocks_right_iff (weeks : RtcTime → Byte) (r r' : RtcTime) :
    ClocksRight weeks r r' ↔ ClocksSafe r r' := by
  constructor
  · rintro ⟨hexact, -, hepoch⟩
    refine ⟨⟨(gettimeNanos_exact_iff r).mp hexact.1, (gettimeNanos_exact_iff r').mp hexact.2⟩, ?_⟩
    rintro ⟨hdate, hdate', hbefore⟩
    obtain ⟨n, n', hn, -, -⟩ := hepoch hdate hdate' hbefore
    rw [gettimeEpoch_undefined weeks hdate] at hn
    cases hn
  · rintro ⟨hearly, hepoch⟩
    have hexact := (gettimeNanos_exact_iff r).mpr hearly.1
    have hexact' := (gettimeNanos_exact_iff r').mpr hearly.2
    refine ⟨⟨hexact, hexact'⟩, fun _ hlt => increases_of_exact hexact hexact' hlt, ?_⟩
    exact fun hdate hdate' hbefore => absurd ⟨hdate, hdate', hbefore⟩ hepoch

/-- A time of the first day of 2020. -/
def newYear (hour minute : Byte) : RtcTime := ⟨2020, 1, 1, hour, minute, 1, 0⟩

/-- At one o'clock the nanoseconds overflow, a minute past midnight they count for ten
minutes, and the epoch has no seconds. -/
theorem newYear_not_right :
    (newYear 0 1).Valid ∧ (newYear 1 0).Valid ∧
      gettimeNanos (newYear 1 0) = none ∧
      gettimeNanos (newYear 0 1) = some 601000000000#64 ∧
      (newYear 0 1).exactNanos = 61000000000 ∧
      gettimeEpoch (fun _ => 0) (newYear 0 1) = none ∧
      ¬ ClocksRight (fun _ => 0) (newYear 0 1) (newYear 1 0) := by
  refine ⟨⟨by decide, by decide, by decide, by decide, by decide, by decide⟩,
    ⟨by decide, by decide, by decide, by decide, by decide, by decide⟩, by decide, by decide,
    by decide, by decide, fun hright => ?_⟩
  have hsafe := (clocks_right_iff _ _ _).mp hright
  exact absurd hsafe.early.2.1 (by decide)

end Syscalls
end BestKernel
