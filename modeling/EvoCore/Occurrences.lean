import EvoCore.Appointments
import EvoCore.Calendar

namespace EvoCore.Appointments
open Calendar
open HappeningBus (asI64 u64Max)

def dayMs : Int := 86400000

def weekdayOf (n : Int) : DayOfWeek := [DayOfWeek.mon,.tue,.wed,.thu,.fri,.sat].getD (weekdayNumber n).toNat .sun

-- The chrono crate on the Gregorian calendar: dates have day numbers up to that of the last date it represents,
-- times of day are milliseconds, a leap second at the end of the day included.
structure Gregorian {δ τ ω : Type} (chrono : Chrono δ τ ω) (number : δ → Int) (millis : τ → Int) (lastDay : Int) : Prop where
  injective : Function.Injective number
  added : ∀ date k later,chrono.addDays date k = some later → number later = number date+k
  addable : ∀ date k,(chrono.addDays date k).isSome = decide (number date+k ≤ lastDay)
  small : lastDay ≤ 100000000
  timed : ∀ raw format time,chrono.parseTime raw format = some time → 0 ≤ millis time ∧ millis time ≤ dayMs
  stamped : ∀ date time,chrono.utcMillis date time = number date*dayMs+millis time
  dated : ∀ ms now,chrono.fromTimestampMillis ms = some now → number (chrono.utcDate now) = ms/dayMs
  weekday : ∀ date,chrono.weekday date = weekdayOf (number date)
  calendar : ∀ date,∃ y,IsDate (number date) y (chrono.month date) (chrono.day date)

-- What the recurrences that follow the calendar say of a day.
def Matches (n : Int) : AppointmentRecurrence → Prop
  | .daily => True
  | .weekdays => weekdayOf n ≠ .sat ∧ weekdayOf n ≠ .sun
  | .weekends => weekdayOf n = .sat ∨ weekdayOf n = .sun
  | .weekly days => weekdayOf n ∈ days
  | .monthly dayOfMonth => ∃ y m,IsDate n y m dayOfMonth
  | .yearly month day => ∃ y,IsDate n y month day
  | _ => False

def AppointmentRecurrence.isCalendar : AppointmentRecurrence → Bool
  | .oneShot _ => false
  | .cron _ => false
  | .periodic _ => false
  | _ => true

section
variable {δ τ ω : Type} [DecidableEq δ] (chrono : Chrono δ τ ω) (number : δ → Int) (millis : τ → Int) (lastDay : Int)

-- A spec that names a calendar recurrence in UTC and whose texts parse.
structure WellFormed (spec : AppointmentSpec) (time : τ) (except : List δ) : Prop where
  calendar : spec.recurrence.isCalendar = true
  valid : validRecurrence spec.recurrence = none
  utc : spec.zone = .utc
  time : parseTimeOfDay chrono spec.time = .ok time
  except : parseExceptDates chrono spec.except = .ok except

def OccursOn (recurrence : AppointmentRecurrence) (except : List δ) (n : Int) : Prop := Matches n recurrence ∧ n ∉ except.map number

-- The instants of an appointment, all dates of the calendar taken together.
def occurrences (recurrence : AppointmentRecurrence) (time : τ) (except : List δ) : Set Int :=
  Set.image (fun n => n*dayMs+millis time) {n | OccursOn number recurrence except n}

def within (endTimeMs : Option Nat) (t : Int) : Prop := ∀ final,endTimeMs = some final → t ≤ final

-- The earliest instant after now, and none only where there is none up to the end.
def Earliest (instants : Set Int) (endTimeMs : Option Nat) (nowUtcMs : Nat) : Except RecurrenceError (Option Nat) → Prop
  | .ok (some t) => IsLeast {t ∈ instants | nowUtcMs < t} t ∧ within endTimeMs t
  | .ok none => ∀ t ∈ instants,nowUtcMs < t → ¬ within endTimeMs t
  | .error _ => False

-- If an instant after now lies before the end at all, some instant lies on one of the 367 dates from today's.
def InReach (recurrence : AppointmentRecurrence) (time : τ) (except : List δ) (endTimeMs : Option Nat) (nowUtcMs : Nat) : Prop :=
  (∃ t ∈ occurrences number millis recurrence time except,nowUtcMs < t ∧ within endTimeMs t) →
    ∃ n,OccursOn number recurrence except n ∧ nowUtcMs < n*dayMs+millis time ∧ n ≤ nowUtcMs/dayMs+366 ∧ n ≤ lastDay

end

section
variable {δ τ ω : Type} [DecidableEq δ] {chrono : Chrono δ τ ω} {number : δ → Int} {millis : τ → Int} {lastDay : Int}

omit [DecidableEq δ] in
theorem parsed_timed (gregorian : Gregorian chrono number millis lastDay) {raw : Option String} (parsed : parseTimeOfDay chrono raw = .ok time) :
    0 ≤ millis time ∧ millis time ≤ dayMs := by
  cases raw with
  | none => cases parsed
  | some raw =>
    rw [parseTimeOfDay] at parsed
    cases short : chrono.parseTime raw "%H:%M" with
    | some found =>
      rw [short] at parsed
      cases parsed
      exact gregorian.timed _ _ _ short
    | none =>
      rw [short,Option.orElse_none] at parsed
      cases long : chrono.parseTime raw "%H:%M:%S" with
      | some found =>
        rw [long] at parsed
        cases parsed
        exact gregorian.timed _ _ _ long
      | none =>
        rw [long] at parsed
        cases parsed

omit [DecidableEq δ] in
theorem matches_exact (gregorian : Gregorian chrono number millis lastDay) {recurrence : AppointmentRecurrence}
    (calendar : recurrence.isCalendar = true) (date : δ) :
    dayMatchesRecurrence chrono date recurrence = true ↔ Matches (number date) recurrence := by
  obtain ⟨y,dated⟩ := gregorian.calendar date
  cases recurrence with
  | oneShot fireAtMs => cases calendar
  | cron expr => cases calendar
  | periodic intervalMs => cases calendar
  | daily => simp [dayMatchesRecurrence,Matches]
  | weekdays => simp [dayMatchesRecurrence,Matches,gregorian.weekday]
  | weekends => simp [dayMatchesRecurrence,Matches,gregorian.weekday]
  | weekly days => simp [dayMatchesRecurrence,Matches,gregorian.weekday]
  | monthly dayOfMonth =>
    rw [dayMatchesRecurrence,decide_eq_true_iff,Matches]
    constructor
    · rintro rfl
      exact ⟨y,_,dated⟩
    · rintro ⟨z,m,other⟩
      exact (dated.unique other).2.2
  | yearly month day =>
    rw [dayMatchesRecurrence,Bool.and_eq_true,decide_eq_true_iff,decide_eq_true_iff,Matches]
    constructor
    · rintro ⟨rfl,rfl⟩
      exact ⟨y,dated⟩
    · rintro ⟨z,other⟩
      exact (dated.unique other).2

theorem asU64_small {ms : Int} (from_ : 0 ≤ ms) (until_ : ms < 2^64) : (asU64 ms : Int) = ms := by
  rw [asU64,Int.emod_eq_of_lt from_ until_,Int.toNat_of_nonneg from_]

variable {recurrence : AppointmentRecurrence} {time : τ} {except : List δ} {today : δ} {nowUtcMs : Nat}

theorem candidate_exact (gregorian : Gregorian chrono number millis lastDay) (calendar : recurrence.isCalendar = true)
    (timed : 0 ≤ millis time ∧ millis time ≤ dayMs) (later : 0 ≤ number today) (k c : Nat) :
    candidateOn chrono recurrence false today time except nowUtcMs k = some c ↔
      number today+k ≤ lastDay ∧ OccursOn number recurrence except (number today+k) ∧
        nowUtcMs < (number today+k)*dayMs+millis time ∧ (c : Int) = (number today+k)*dayMs+millis time := by
  have addable := gregorian.addable today k
  unfold candidateOn
  cases moved : chrono.addDays today k with
  | none =>
    rw [moved] at addable
    have beyond := of_decide_eq_false addable.symm
    simp [beyond]
  | some date =>
    rw [moved] at addable
    have inside : number today+k ≤ lastDay := of_decide_eq_true addable.symm
    have day := gregorian.added _ _ _ moved
    have small := gregorian.small
    have stamp := @asU64_small ((number today+k)*dayMs+millis time) (by unfold dayMs; omega) (by unfold dayMs at *; omega)
    have excluded : date ∈ except ↔ number today+k ∈ except.map number := by
      rw [←day]
      exact (List.mem_map_of_injective gregorian.injective).symm
    have matching := matches_exact gregorian calendar date
    rw [day] at matching
    simp only [Option.bind_eq_bind,Option.bind_some,Bool.false_eq_true,if_false,gregorian.stamped,day]
    generalize (number today+k)*dayMs+millis time = ms at stamp ⊢
    unfold OccursOn
    rw [←matching,←excluded]
    constructor
    · intro found
      split at found
      · cases found
      · rename_i kept
        obtain ⟨late,rest⟩ := not_or.mp kept
        obtain ⟨free,matched⟩ := not_or.mp rest
        cases found
        exact ⟨inside,⟨Bool.not_eq_false _ ▸ matched,free⟩,by omega,stamp⟩
    · rintro ⟨_,⟨matched,free⟩,late,same⟩
      have kept : ¬ (asU64 ms ≤ nowUtcMs ∨ date ∈ except ∨ dayMatchesRecurrence chrono date recurrence = false) := by
        rintro (early | out | unmatched)
        · omega
        · exact free out
        · rw [matched] at unmatched
          cases unmatched
      rw [if_neg kept]
      exact congrArg some (by omega)

theorem occurs_today {n : Int} (timed : 0 ≤ millis time ∧ millis time ≤ dayMs) (late : nowUtcMs < n*dayMs+millis time) : nowUtcMs/dayMs ≤ n := by
  unfold dayMs at *
  omega

-- The walk stops at the earliest instant of all, if it stops at a date.
theorem walk_some (gregorian : Gregorian chrono number millis lastDay) (calendar : recurrence.isCalendar = true)
    (timed : 0 ≤ millis time ∧ millis time ≤ dayMs) (now : number today = nowUtcMs/dayMs)
    (found : (List.range maxLookaheadDays).findSome? (candidateOn chrono recurrence false today time except nowUtcMs) = some c) :
    IsLeast {t ∈ occurrences number millis recurrence time except | nowUtcMs < t} c ∧
      ∃ n,OccursOn number recurrence except n ∧ nowUtcMs < n*dayMs+millis time ∧ n ≤ nowUtcMs/dayMs+366 ∧ n ≤ lastDay := by
  have later : 0 ≤ number today := by rw [now]; unfold dayMs; omega
  obtain ⟨early,k,rest,shape,here,earlier⟩ := List.findSome?_eq_some_iff.mp found
  obtain ⟨inside,occurs,late,same⟩ := (candidate_exact gregorian calendar timed later k c).mp here
  have place : (List.range maxLookaheadDays)[early.length]? = some k := by rw [shape]; simp
  have window := (List.getElem?_eq_some_iff.mp place).1
  rw [List.length_range] at window
  rw [List.getElem?_range window] at place
  have before (j : Nat) (sooner : j < k) : j ∈ early := by
    have there : (List.range maxLookaheadDays)[j]? = some j := List.getElem?_range (by have := Option.some.inj place; omega)
    rw [shape,List.getElem?_append_left (by have := Option.some.inj place; omega)] at there
    exact List.mem_of_getElem? there
  refine ⟨⟨⟨⟨_,occurs,same.symm⟩,by rw [same]; exact late⟩,?_⟩,_,occurs,late,?_,inside⟩
  · rintro t ⟨⟨n,occurs_,rfl⟩,late_⟩
    have today_ := occurs_today timed late_
    have after : (nowUtcMs : Int) < n*dayMs+millis time := late_
    by_contra sooner
    have sooner_ : n*dayMs+millis time < (number today+k)*dayMs+millis time := by
      rw [←same]
      exact not_le.mp sooner
    have fewer : n < number today+k := by
      unfold dayMs at sooner_
      omega
    obtain ⟨j,offset⟩ := Int.eq_ofNat_of_zero_le (show 0 ≤ n-number today by rw [now]; omega)
    have day : n = number today+j := by omega
    have skipped := earlier j (before j (by omega))
    have stamped : ((n*dayMs+millis time).toNat : Int) = n*dayMs+millis time := Int.toNat_of_nonneg (by omega)
    rw [(candidate_exact gregorian calendar timed later j (n*dayMs+millis time).toNat).mpr
      ⟨by omega,day ▸ occurs_,day ▸ late_,day ▸ stamped⟩] at skipped
    cases skipped
  · rw [now]
    have := Option.some.inj place
    unfold maxLookaheadDays at window
    omega

theorem walk_none (gregorian : Gregorian chrono number millis lastDay) (calendar : recurrence.isCalendar = true)
    (timed : 0 ≤ millis time ∧ millis time ≤ dayMs) (now : number today = nowUtcMs/dayMs)
    (missed : (List.range maxLookaheadDays).findSome? (candidateOn chrono recurrence false today time except nowUtcMs) = none) :
    ¬ ∃ n,OccursOn number recurrence except n ∧ nowUtcMs < n*dayMs+millis time ∧ n ≤ nowUtcMs/dayMs+366 ∧ n ≤ lastDay := by
  rintro ⟨n,occurs,late,window,inside⟩
  have later : 0 ≤ number today := by rw [now]; unfold dayMs; omega
  have today_ := occurs_today timed late
  obtain ⟨j,offset⟩ := Int.eq_ofNat_of_zero_le (show 0 ≤ n-number today by rw [now]; omega)
  have day : n = number today+j := by omega
  have skipped := List.findSome?_eq_none_iff.mp missed j (List.mem_range.mpr (by unfold maxLookaheadDays; omega))
  have stamped : ((n*dayMs+millis time).toNat : Int) = n*dayMs+millis time := Int.toNat_of_nonneg (by omega)
  rw [(candidate_exact gregorian calendar timed later j (n*dayMs+millis time).toNat).mpr
    ⟨by omega,day ▸ occurs,day ▸ late,day ▸ stamped⟩] at skipped
  cases skipped

theorem asI64_small {n : Nat} (small : n < 2^63) : asI64 n = n := by
  have from_ : -((2^64 : Nat) : Int) ≤ (n : Int)*2 := by omega
  have until_ : (n : Int)*2 < ((2^64 : Nat) : Int) := by omega
  exact Int.bmod_eq_of_le_mul_two from_ until_

theorem nextFire_walk {spec : AppointmentSpec} {now : ω} (wellFormed : WellFormed chrono spec time except) (small : nowUtcMs < 2^63)
    (representable : chrono.fromTimestampMillis nowUtcMs = some now) (uncapped : capReached spec firesCompleted = false) :
    nextFireAfter chrono spec nowUtcMs firesCompleted =
      .ok (((List.range maxLookaheadDays).findSome? (candidateOn chrono spec.recurrence false (chrono.utcDate now) time except nowUtcMs)).filter
        fun ms => !pastEnd spec ms) := by
  have instant := asI64_small small
  have walked : nextPeriodicFire chrono spec.recurrence spec.zone time except nowUtcMs =
      .ok ((List.range maxLookaheadDays).findSome? (candidateOn chrono spec.recurrence false (chrono.utcDate now) time except nowUtcMs)) := by
    unfold nextPeriodicFire
    simp only [wellFormed.valid,instant,representable,wellFormed.utc]
  have candidate : candidateFire chrono spec nowUtcMs firesCompleted = nextPeriodicFire chrono spec.recurrence spec.zone time except nowUtcMs := by
    have calendar := wellFormed.calendar
    unfold candidateFire
    cases shape : spec.recurrence with
    | oneShot fireAtMs => rw [shape] at calendar; cases calendar
    | cron expr => rw [shape] at calendar; cases calendar
    | periodic intervalMs => rw [shape] at calendar; cases calendar
    | _ =>
      simp only [wellFormed.time,wellFormed.except]
      rfl
  rw [nextFireAfter,uncapped,if_neg Bool.false_ne_true,candidate,walked]
  rfl

theorem within_exact (spec : AppointmentSpec) (c : Nat) : within spec.endTimeMs c ↔ pastEnd spec c = false := by
  unfold within pastEnd
  cases spec.endTimeMs with
  | none => simp
  | some final => simp

-- The next fire is the earliest exactly where the walk reaches far enough.
theorem next_fire_exact (gregorian : Gregorian chrono number millis lastDay) {spec : AppointmentSpec} {now : ω}
    (wellFormed : WellFormed chrono spec time except) (small : nowUtcMs < 2^63)
    (representable : chrono.fromTimestampMillis nowUtcMs = some now) (uncapped : capReached spec firesCompleted = false) :
    Earliest (occurrences number millis spec.recurrence time except) spec.endTimeMs nowUtcMs (nextFireAfter chrono spec nowUtcMs firesCompleted) ↔
      InReach number millis lastDay spec.recurrence time except spec.endTimeMs nowUtcMs := by
  have timed := parsed_timed gregorian wellFormed.time
  have today := gregorian.dated _ _ representable
  rw [nextFire_walk wellFormed small representable uncapped]
  cases walked : (List.range maxLookaheadDays).findSome? (candidateOn chrono spec.recurrence false (chrono.utcDate now) time except nowUtcMs) with
  | none =>
    have out := walk_none gregorian wellFormed.calendar timed today walked
    rw [Option.filter_none,Earliest,InReach]
    constructor
    · rintro missed ⟨t,occurs,late,inTime⟩
      exact absurd inTime (missed t occurs late)
    · intro inReach t occurs late inTime
      exact out (inReach ⟨t,occurs,late,inTime⟩)
  | some c =>
    obtain ⟨least,window⟩ := walk_some gregorian wellFormed.calendar timed today walked
    refine iff_of_true ?_ fun _ => window
    cases ended : pastEnd spec c with
    | false =>
      rw [Option.filter_some,ended,Bool.not_false,if_pos rfl]
      exact ⟨least,(within_exact spec c).mpr ended⟩
    | true =>
      rw [Option.filter_some,ended,Bool.not_true,if_neg Bool.false_ne_true]
      intro t occurs late inTime
      have sooner := least.2 ⟨occurs,late⟩
      have kept := (within_exact spec c).mp fun final named => sooner.trans (inTime final named)
      rw [ended] at kept
      cases kept

end

-- The dates and instants of the crate, on a host whose own zone is UTC.
def isDay (n : Int) : Prop := yearStart (-262143) ≤ n ∧ n < yearStart 262143

instance (n : Int) : Decidable (isDay n) := inferInstanceAs (Decidable (yearStart (-262143) ≤ n ∧ n < yearStart 262143))

def civilChrono : Chrono {n : Int // isDay n} Int {ms : Int // isDay (ms/dayMs)} where
  parseTime raw format := if raw = "06:30" ∧ format = "%H:%M" then some 23400000 else none
  parseDate _ _ := none
  fromTimestampMillis ms := if h : isDay (ms/dayMs) then some ⟨ms,h⟩ else none
  utcDate now := ⟨now.1/dayMs,now.2⟩
  localDate now := ⟨now.1/dayMs,now.2⟩
  addDays date k := if h : date.1+k < yearStart 262143 then some ⟨date.1+k,le_trans date.2.1 (Int.le_add_of_nonneg_right (Int.natCast_nonneg k)),h⟩ else none
  utcMillis date time := date.1*dayMs+time
  localMillis date time := .single (date.1*dayMs+time)
  weekday date := weekdayOf date.1
  month date := monthOf date.1
  day date := dayOf date.1

theorem civil_gregorian : Gregorian civilChrono Subtype.val id (yearStart 262143-1) where
  injective := Subtype.val_injective
  added date k later moved := by
    unfold civilChrono at moved
    simp only at moved
    split at moved
    · cases moved
      rfl
    · cases moved
  addable date k := by
    unfold civilChrono
    simp only
    split
    · exact (decide_eq_true (by omega)).symm
    · exact (decide_eq_false (by omega)).symm
  small := by decide
  timed raw format time parsed := by
    unfold civilChrono at parsed
    simp only at parsed
    split at parsed
    · cases parsed
      decide
    · cases parsed
  stamped _ _ := rfl
  dated ms now given := by
    unfold civilChrono at given
    simp only at given
    split at given
    · cases given
      rfl
    · cases given
  weekday _ := rfl
  calendar date := ⟨yearOf date.1,isDate_of date.1⟩

def leapDay : AppointmentSpec := ⟨"leap-day",some "06:30",.utc,.yearly 2 29,none,none,[],.catchup⟩

theorem leapDay_wellFormed : WellFormed civilChrono leapDay 23400000 [] := ⟨rfl,rfl,rfl,rfl,rfl⟩

theorem leapDay_2028 : OccursOn (Subtype.val : {n : Int // isDay n} → Int) leapDay.recurrence [] 21243 :=
  ⟨⟨2028,by decide,by decide,by decide⟩,List.not_mem_nil⟩

theorem civil_now {nowUtcMs : Nat} (today : isDay (nowUtcMs/dayMs)) : civilChrono.fromTimestampMillis nowUtcMs = some ⟨nowUtcMs,today⟩ := by
  simp only [civilChrono]
  rw [dif_pos today]

-- In June 2027 the leap day of 2028 is next.
theorem leapDay_found : Earliest (occurrences Subtype.val id leapDay.recurrence 23400000 ([] : List {n : Int // isDay n})) none 1811808000000
    (nextFireAfter civilChrono leapDay 1811808000000 0) := by
  have today : isDay (((1811808000000 : Nat) : Int)/dayMs) := by unfold isDay yearStart dayMs; omega
  have uncapped : capReached leapDay 0 = false := rfl
  have endless : leapDay.endTimeMs = none := rfl
  rw [← endless,next_fire_exact civil_gregorian leapDay_wellFormed (by omega) (civil_now today) uncapped]
  intro _
  refine ⟨21243,leapDay_2028,?_⟩
  unfold yearStart dayMs
  simp only [id]
  omega

theorem no_leapDay {n y : Int} {m d : Nat} (date : IsDate n y m d) (from_ : 20148 ≤ n) (until_ : n ≤ 20514) : m ≠ 2 ∨ d ≠ 29 := by
  obtain ⟨begun,ends⟩ := date.inYear
  have later : 2025 ≤ y := by
    by_contra early
    have := yearStart_mono (show y+1 ≤ 2025 by omega)
    have start : yearStart 2025 = 20089 := by decide
    omega
  have sooner : y ≤ 2026 := by
    by_contra late
    have := yearStart_mono (show 2027 ≤ y by omega)
    have start : yearStart 2027 = 20819 := by decide
    omega
  have common : isLeap y = false := by
    obtain rfl | rfl : y = 2025 ∨ y = 2026 := by omega
    · decide
    · decide
  by_contra both
  obtain ⟨february,last⟩ := not_or.mp both
  have day := date.day.2
  rw [not_not.mp february,not_not.mp last,daysIn,if_pos rfl,common] at day
  exact absurd day (by decide)

-- In March 2025 it is three years off, and the appointment has ended.
theorem leapDay_lost : nextFireAfter civilChrono leapDay 1740787200000 0 = .ok none ∧
    ¬ Earliest (occurrences Subtype.val id leapDay.recurrence 23400000 ([] : List {n : Int // isDay n})) none 1740787200000
      (nextFireAfter civilChrono leapDay 1740787200000 0) := by
  have today : isDay (((1740787200000 : Nat) : Int)/dayMs) := by unfold isDay yearStart dayMs; omega
  have ended : nextFireAfter civilChrono leapDay 1740787200000 0 = .ok none := by
    rw [nextFire_walk leapDay_wellFormed (by omega) (civil_now today) rfl]
    cases walked : (List.range maxLookaheadDays).findSome?
        (candidateOn civilChrono leapDay.recurrence false (civilChrono.utcDate ⟨((1740787200000 : Nat) : Int),today⟩) 23400000 [] 1740787200000) with
    | none => rfl
    | some c =>
      obtain ⟨_,n,⟨⟨y,date⟩,_⟩,late,window,_⟩ := walk_some civil_gregorian rfl (parsed_timed civil_gregorian leapDay_wellFormed.time)
        (civil_gregorian.dated _ _ (civil_now today)) walked
      unfold dayMs at late window
      simp only [id] at late
      obtain unlike | unlike := no_leapDay date (by omega) (by omega)
      · exact absurd rfl unlike
      · exact absurd rfl unlike
  refine ⟨ended,?_⟩
  rw [ended]
  intro missed
  have later := missed (21243*dayMs+23400000) ⟨21243,leapDay_2028,rfl⟩ (by unfold dayMs; omega)
  exact later fun final named => (by cases named)

end EvoCore.Appointments
