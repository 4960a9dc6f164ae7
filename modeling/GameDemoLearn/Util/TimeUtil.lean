import GameDemoLearn.Util.Util

/-!
`GetGMTTimeStr` (`TimeUtil.h`): a reading of the system clock under the format
`{:%a, %d %b %Y %H:%M:%OS GMT}`.
-/

namespace GameDemoLearn.TimeUtil

/-- A reading as a calendar shows it. The fraction of the second has as many digits as
the clock. -/
structure SystemTime where
  weekday : Fin 7
  day : Fin 32
  month : Fin 12
  year : Int
  hour : Fin 24
  minute : Fin 60
  second : Fin 60
  fraction : List (Fin 10)

def weekdayName (weekday : Fin 7) : Bytes :=
  Bytes.ofString (["Sun", "Mon", "Tue", "Wed", "Thu", "Fri", "Sat"].get weekday)

def monthName (month : Fin 12) : Bytes :=
  Bytes.ofString (["Jan", "Feb", "Mar", "Apr", "May", "Jun", "Jul", "Aug", "Sep", "Oct", "Nov",
    "Dec"].get month)

/-- A number with leading zeros up to the given width. -/
def padded (width n : Nat) : Bytes :=
  List.replicate (width - (Util.toChars n).length) 48 ++ Util.toChars n

def yearString (year : Int) : Bytes :=
  (if year < 0 then [45] else []) ++ padded 4 year.natAbs

/-- The seconds, with the decimal point where the clock counts fractions of them. -/
def secondsString (second : Fin 60) (fraction : List (Fin 10)) : Bytes :=
  padded 2 second ++
    if fraction = [] then [] else 46 :: fraction.map fun digit => UInt8.ofNat (48 + digit.val)

def getGMTTimeStr (time : SystemTime) : Bytes :=
  weekdayName time.weekday ++ [44, 32] ++ padded 2 time.day ++ [32] ++ monthName time.month
    ++ [32] ++ yearString time.year ++ [32] ++ padded 2 time.hour ++ [58]
    ++ padded 2 time.minute ++ [58] ++ secondsString time.second time.fraction
    ++ Bytes.ofString " GMT"

theorem isPrint_padded (width n : Nat) : ∀ c ∈ padded width n, Util.isPrint c = true := by
  rw [padded, List.forall_mem_append]
  refine ⟨fun c hc => ?_, Util.isPrint_toChars n⟩
  rw [List.eq_of_mem_replicate hc]
  rfl

theorem isPrint_secondsString (second : Fin 60) (fraction : List (Fin 10)) :
    ∀ c ∈ secondsString second fraction, Util.isPrint c = true := by
  rw [secondsString, List.forall_mem_append]
  refine ⟨isPrint_padded 2 second, ?_⟩
  split
  · exact List.forall_mem_nil _
  · rw [List.forall_mem_cons, List.forall_mem_map]
    exact ⟨rfl, fun digit _ => Util.isPrint_of_isDigit (Util.isDigit_ofNat digit.isLt)⟩

theorem isPrint_yearString (year : Int) : ∀ c ∈ yearString year, Util.isPrint c = true := by
  rw [yearString, List.forall_mem_append]
  refine ⟨?_, isPrint_padded 4 year.natAbs⟩
  split
  · exact List.forall_mem_singleton.mpr rfl
  · exact List.forall_mem_nil _

theorem isPrint_weekdayName (weekday : Fin 7) :
    ∀ c ∈ weekdayName weekday, Util.isPrint c = true := by
  rw [← List.all_eq_true]
  fin_cases weekday <;> decide

theorem isPrint_monthName (month : Fin 12) : ∀ c ∈ monthName month, Util.isPrint c = true := by
  rw [← List.all_eq_true]
  fin_cases month <;> decide

/-- The text of a time has printable characters only. -/
theorem isPrint_getGMTTimeStr (time : SystemTime) :
    ∀ c ∈ getGMTTimeStr time, Util.isPrint c = true := by
  simp only [getGMTTimeStr, List.forall_mem_append, and_assoc]
  have hcomma : ∀ c ∈ ([44, 32] : Bytes), Util.isPrint c = true := List.all_eq_true.mp rfl
  have hblank : ∀ c ∈ ([32] : Bytes), Util.isPrint c = true := List.all_eq_true.mp rfl
  have hcolon : ∀ c ∈ ([58] : Bytes), Util.isPrint c = true := List.all_eq_true.mp rfl
  have hzone : ∀ c ∈ Bytes.ofString " GMT", Util.isPrint c = true :=
    List.all_eq_true.mp (by decide)
  exact ⟨isPrint_weekdayName _, hcomma, isPrint_padded 2 _, hblank, isPrint_monthName _, hblank,
    isPrint_yearString _, hblank, isPrint_padded 2 _, hcolon, isPrint_padded 2 _, hcolon,
    isPrint_secondsString _ _, hzone⟩

end GameDemoLearn.TimeUtil
