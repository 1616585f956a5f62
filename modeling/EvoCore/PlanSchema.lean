import EvoCore.Bytes
import EvoCore.Plans

namespace EvoCore.PlanSchema
open Bytes
open Plans (DayMask SegmentDuration WatchHappeningFilter)
open Appointments (DayOfWeek AppointmentTimeZone)

-- What the constructors of crates/evo-plugin-sdk/src/contract/plans.rs refuse. The kinds stand for the
-- texts that the source formats.
inductive PlanError where
  | emptyId
  | longId (maxLen : Nat)
  | hiddenId
  | nulId
  | separatorId
  | disallowed (ch : Char)
  | clockLength (length : Nat)
  | clockColon
  | clockHour (part : List UInt8)
  | clockMinute (part : List UInt8)
  | hourRange (hour : Nat)
  | minuteRange (minute : Nat)
  | emptyMask
  | duplicateDay (day : DayOfWeek)
  | zeroCrossfade
deriving DecidableEq,Repr

-- The derived Deserialize fills these without their constructors, so the fields are what the document says.
structure PlanId where
  value : String
deriving DecidableEq,Repr

structure ClockTime where
  value : String
deriving DecidableEq,Repr

def PlanId.maxLen : Nat := 64

def asciiAlphanumeric (ch : Char) : Bool := ('0' ≤ ch && ch ≤ '9') || ('A' ≤ ch && ch ≤ 'Z') || ('a' ≤ ch && ch ≤ 'z')

def portable (ch : Char) : Bool := asciiAlphanumeric ch || ch = '.' || ch = '_' || ch = '-'

def PlanId.new (raw : String) : Except PlanError PlanId :=
  if raw.toList = [] then .error .emptyId
  else if PlanId.maxLen < (utf8 raw).length then .error (.longId PlanId.maxLen)
  else if raw.toList.head? = some '.' then .error .hiddenId
  else if '\x00' ∈ raw.toList then .error .nulId
  else if '/' ∈ raw.toList ∨ '\\' ∈ raw.toList then .error .separatorId
  else
    match raw.toList.find? fun ch => !portable ch with
    | some ch => .error (.disallowed ch)
    | none => .ok ⟨raw⟩

-- The standard library's reading of a u8: one plus sign may stand before the digits.
def digitsU8 : List UInt8 → Nat → Option Nat
  | [],value => some value
  | byte::rest,value =>
    if 48 ≤ byte ∧ byte ≤ 57 then
      let next := value*10 + (byte.toNat - 48)
      if next ≤ 255 then digitsU8 rest next else none
    else none

def parseU8 (text : List UInt8) : Option Nat :=
  let digits := if text.head? = some 43 then text.tail else text
  if digits = [] then none else digitsU8 digits 0

def ClockTime.new (raw : String) : Except PlanError ClockTime :=
  let bytes := utf8 raw
  if bytes.length ≠ 5 then .error (.clockLength bytes.length)
  else if bytes[2]? ≠ some 58 then .error .clockColon
  else
    match parseU8 (bytes.take 2) with
    | none => .error (.clockHour (bytes.take 2))
    | some hour =>
      match parseU8 (bytes.drop 3) with
      | none => .error (.clockMinute (bytes.drop 3))
      | some minute =>
        if 23 < hour then .error (.hourRange hour)
        else if 59 < minute then .error (.minuteRange minute)
        else .ok ⟨raw⟩

-- Arithmetic on u8: nothing where it leaves the type, or where the index is out of bounds.
def twoDigits (bytes : List UInt8) (i : Nat) : Option Nat := do
  let tens ← bytes[i]?
  let ones ← bytes[i+1]?
  if tens < 48 ∨ ones < 48 ∨ 255 < (tens.toNat - 48)*10 ∨ 255 < (tens.toNat - 48)*10 + (ones.toNat - 48) then none
  else some ((tens.toNat - 48)*10 + (ones.toNat - 48))

def ClockTime.parts (t : ClockTime) : Option (Nat × Nat) := do
  let hour ← twoDigits (utf8 t.value) 0
  let minute ← twoDigits (utf8 t.value) 3
  return (hour,minute)

def firstDuplicate : List DayOfWeek → List DayOfWeek → Option DayOfWeek
  | [],_ => none
  | d::rest,seen => if d ∈ seen then some d else firstDuplicate rest (seen ++ [d])

def DayMask.custom (days : List DayOfWeek) : Except PlanError DayMask :=
  if days = [] then .error .emptyMask
  else
    match firstDuplicate days [] with
    | some d => .error (.duplicateDay d)
    | none => .ok (.custom days)

inductive TransitionType where
  | hard
  | crossfade (durationMs : Nat)
  | gapless
deriving DecidableEq,Repr

def TransitionType.checkedCrossfade (durationMs : Nat) : Except PlanError TransitionType :=
  if durationMs = 0 then .error .zeroCrossfade else .ok (.crossfade durationMs)

inductive PlanTrigger where
  | timeOfDay (time : ClockTime) (daysOfWeek : DayMask) (timezone : AppointmentTimeZone)
  | eventReceived (eventFilter : WatchHappeningFilter) (debounceMs : Option Nat)
  | userCommand
  | planCompletion (priorPlanId : PlanId)
  | firstBoot
deriving DecidableEq,Repr

-- Without the content and the fades, which nothing here reads.
structure PlanSegment where
  duration : SegmentDuration
  transition : TransitionType
deriving DecidableEq,Repr

inductive OnComplete where
  | nextPlan (planId : PlanId)
  | stop
  | loop
  | resumePreviousSource
deriving DecidableEq,Repr

-- Without the description and the authorship.
structure Plan where
  id : PlanId
  name : String
  trigger : PlanTrigger
  preempt : Bool
  segments : List PlanSegment
  onComplete : OnComplete
  lastModifiedMs : Nat
deriving DecidableEq,Repr

def PlanTrigger.registered : PlanTrigger → Plans.PlanTrigger
  | .timeOfDay time daysOfWeek timezone => .timeOfDay time.value daysOfWeek timezone
  | .eventReceived eventFilter debounceMs => .eventReceived eventFilter debounceMs
  | .userCommand => .userCommand
  | .planCompletion priorPlanId => .planCompletion priorPlanId.value
  | .firstBoot => .firstBoot

def OnComplete.registered : OnComplete → Plans.OnComplete
  | .nextPlan planId => .nextPlan planId.value
  | .stop => .stop
  | .loop => .loop
  | .resumePreviousSource => .resumePreviousSource

def Plan.registered (p : Plan) : Plans.Plan where
  id := p.id.value
  name := p.name
  trigger := p.trigger.registered
  preempt := p.preempt
  segments := p.segments.map fun segment => ⟨segment.duration⟩
  onComplete := p.onComplete.registered
  lastModifiedMs := p.lastModifiedMs

-- One to 64 portable characters, the first of them no dot.
structure SafeName (text : String) : Prop where
  shown : text.toList ≠ []
  short : (utf8 text).length ≤ PlanId.maxLen
  visible : text.toList.head? ≠ some '.'
  portable : ∀ ch ∈ text.toList,portable ch

theorem portable_ne {ch other : Char} (portable_ : portable ch) (outside : portable other = false) : ch ≠ other := by
  rintro rfl
  rw [portable_] at outside
  cases outside

theorem planId_new_exactly (raw : String) : PlanId.new raw = .ok ⟨raw⟩ ↔ SafeName raw := by
  unfold PlanId.new
  constructor
  · intro accepted
    split at accepted
    · cases accepted
    split at accepted
    · cases accepted
    split at accepted
    · cases accepted
    split at accepted
    · cases accepted
    split at accepted
    · cases accepted
    split at accepted
    · cases accepted
    · rename_i shown short visible _ _ _ all
      refine ⟨shown,Nat.not_lt.mp short,visible,fun ch member => ?_⟩
      simpa using List.find?_eq_none.mp all ch member
  · intro safe
    have apart : ∀ other,portable other = false → other ∉ raw.toList := by
      intro other outside member
      exact portable_ne (safe.portable other member) outside rfl
    have all : raw.toList.find? (fun ch => !portable ch) = none := by
      rw [List.find?_eq_none]
      intro ch member
      simpa using safe.portable ch member
    have separators : ¬ ('/' ∈ raw.toList ∨ '\\' ∈ raw.toList) := by
      rintro (slash | backslash)
      · exact apart '/' (by decide) slash
      · exact apart '\\' (by decide) backslash
    rw [if_neg safe.shown,if_neg (Nat.not_lt.mpr safe.short),if_neg safe.visible,if_neg (apart '\x00' (by decide)),
      if_neg separators,all]

theorem planId_new_value {raw : String} {id : PlanId} (accepted : PlanId.new raw = .ok id) : id.value = raw := by
  unfold PlanId.new at accepted
  repeat' split at accepted
  all_goals cases accepted
  rfl

theorem firstDuplicate_none (days seen : List DayOfWeek) : firstDuplicate days seen = none ↔ days.Nodup ∧ ∀ d ∈ days,d ∉ seen := by
  induction days generalizing seen with
  | nil => simp [firstDuplicate]
  | cons d rest ih =>
    by_cases known : d ∈ seen
    · simp [firstDuplicate,known]
    · simp only [firstDuplicate,known,if_false,ih,List.nodup_cons,List.forall_mem_cons,not_false_eq_true,true_and,List.mem_append,
        List.mem_singleton,not_or]
      constructor
      · rintro ⟨apart,fresh⟩
        exact ⟨⟨fun member => (fresh d member).2 rfl,apart⟩,fun other member => (fresh other member).1⟩
      · rintro ⟨⟨new,apart⟩,fresh⟩
        refine ⟨apart,fun other member => ⟨fresh other member,?_⟩⟩
        rintro rfl
        exact new member

theorem custom_exactly (days : List DayOfWeek) : (DayMask.custom days).isOk ↔ days ≠ [] ∧ days.Nodup := by
  unfold DayMask.custom
  by_cases empty : days = []
  · simp [empty,Except.isOk,Except.toBool]
  · cases first : firstDuplicate days [] with
    | none =>
      have apart := ((firstDuplicate_none days []).mp first).1
      simp [empty,apart,Except.isOk,Except.toBool]
    | some d =>
      have repeated : ¬ days.Nodup := by
        intro apart
        have none_ := (firstDuplicate_none days []).mpr ⟨apart,by simp⟩
        rw [first] at none_
        cases none_
      simp [empty,repeated,Except.isOk,Except.toBool]

def Digit (byte : UInt8) : Prop := 48 ≤ byte ∧ byte ≤ 57

def number (tens ones : UInt8) : Nat := (tens.toNat - 48)*10 + (ones.toNat - 48)

instance (byte : UInt8) : Decidable (Digit byte) := inferInstanceAs (Decidable (_ ∧ _))

theorem digit_toNat {byte : UInt8} : Digit byte ↔ 48 ≤ byte.toNat ∧ byte.toNat ≤ 57 := by
  simp [Digit,UInt8.le_iff_toNat_le]

theorem digit_unsigned {byte : UInt8} (digit : Digit byte) : byte ≠ 43 := by
  rintro rfl
  exact absurd digit (by decide)

theorem digitsU8_digit {byte : UInt8} (digit : Digit byte) (value : Nat) (bound : value*10 + (byte.toNat - 48) ≤ 255) (rest : List UInt8) :
    digitsU8 (byte::rest) value = digitsU8 rest (value*10 + (byte.toNat - 48)) := by
  have inside : 48 ≤ byte ∧ byte ≤ 57 := digit
  simp only [digitsU8,if_pos inside,if_pos bound]

theorem digitsU8_other {byte : UInt8} (other : ¬ Digit byte) (value : Nat) (rest : List UInt8) : digitsU8 (byte::rest) value = none := by
  have outside : ¬ (48 ≤ byte ∧ byte ≤ 57) := other
  simp only [digitsU8,if_neg outside]

theorem parseU8_two {tens ones : UInt8} (unsigned : tens ≠ 43) (value : Nat) :
    parseU8 [tens,ones] = some value ↔ Digit tens ∧ Digit ones ∧ value = number tens ones := by
  have digits : parseU8 [tens,ones] = digitsU8 [tens,ones] 0 := by simp [parseU8,unsigned]
  rw [digits]
  by_cases first : Digit tens
  swap
  · simp [digitsU8_other first,first]
  have low := digit_toNat.mp first
  have step : digitsU8 [tens,ones] 0 = digitsU8 [ones] (0*10 + (tens.toNat - 48)) := digitsU8_digit first 0 (by omega) [ones]
  rw [step]
  by_cases second : Digit ones
  swap
  · simp [digitsU8_other second,second]
  have high := digit_toNat.mp second
  have read : digitsU8 [ones] (0*10 + (tens.toNat - 48)) = some (number tens ones) := by
    rw [digitsU8_digit second _ (by omega) [],digitsU8,number]
    simp
  rw [read]
  simp [first,second,eq_comm]

theorem twoDigits_read {bytes : List UInt8} {i : Nat} {tens ones : UInt8} (first : bytes[i]? = some tens)
    (second : bytes[i+1]? = some ones) (digit : Digit tens) (digit_ : Digit ones) : twoDigits bytes i = some (number tens ones) := by
  have low := digit_toNat.mp digit
  have high := digit_toNat.mp digit_
  have inside : ¬ (tens < 48 ∨ ones < 48 ∨ 255 < (tens.toNat - 48)*10 ∨ 255 < (tens.toNat - 48)*10 + (ones.toNat - 48)) := by
    simp only [UInt8.lt_iff_toNat_lt,UInt8.reduceToNat]
    omega
  simp only [twoDigits,first,second,Option.bind_eq_bind,Option.bind_some,if_neg inside,number]

-- HH:MM, each a digit, and parts reads them back without leaving its type.
def ClockText (t : ClockTime) : Prop := ∃ a b c d,utf8 t.value = [a,b,58,c,d] ∧ (Digit a ∧ Digit b ∧ Digit c ∧ Digit d) ∧
  ∃ hour minute,t.parts = some (hour,minute) ∧ hour ≤ 23 ∧ minute ≤ 59

def Unsigned (raw : String) : Prop := (utf8 raw)[0]? ≠ some 43 ∧ (utf8 raw)[3]? ≠ some 43

theorem parts_number {t : ClockTime} (text : utf8 t.value = [a,b,58,c,d]) (digits : Digit a ∧ Digit b ∧ Digit c ∧ Digit d) :
    t.parts = some (number a b,number c d) := by
  obtain ⟨first,second,third,fourth⟩ := digits
  have hour : twoDigits (utf8 t.value) 0 = some (number a b) := twoDigits_read (by simp [text]) (by simp [text]) first second
  have minute : twoDigits (utf8 t.value) 3 = some (number c d) := twoDigits_read (by simp [text]) (by simp [text]) third fourth
  simp [ClockTime.parts,hour,minute]

theorem five_bytes (bytes : List UInt8) (five : bytes.length = 5) : ∃ a b x c d,bytes = [a,b,x,c,d] := by
  obtain _ | ⟨a,_ | ⟨b,_ | ⟨x,_ | ⟨c,_ | ⟨d,_ | ⟨e,rest⟩⟩⟩⟩⟩⟩ := bytes
  all_goals simp at five
  exact ⟨a,b,x,c,d,rfl⟩

theorem clockTime_new_parts {raw : String} {t : ClockTime} (accepted : ClockTime.new raw = .ok t) :
    t = ⟨raw⟩ ∧ ∃ a b c d hour minute,utf8 raw = [a,b,58,c,d] ∧ parseU8 [a,b] = some hour ∧ parseU8 [c,d] = some minute ∧
      hour ≤ 23 ∧ minute ≤ 59 := by
  unfold ClockTime.new at accepted
  dsimp only at accepted
  split at accepted
  · cases accepted
  split at accepted
  · cases accepted
  rename_i five colon
  split at accepted
  · cases accepted
  rename_i hour early
  split at accepted
  · cases accepted
  rename_i minute late
  split at accepted
  · cases accepted
  split at accepted
  · cases accepted
  rename_i hours minutes
  refine ⟨(Except.ok.inj accepted).symm,?_⟩
  obtain ⟨a,b,x,c,d,shape⟩ := five_bytes (utf8 raw) (not_not.mp five)
  rw [shape] at colon early late
  have middle : x = 58 := by simpa using colon
  subst middle
  exact ⟨a,b,c,d,hour,minute,shape,early,late,Nat.not_lt.mp hours,Nat.not_lt.mp minutes⟩

-- The constructor's own texts are the digits and those with a plus sign in front of a part.
theorem clockTime_exactly (raw : String) : ClockText ⟨raw⟩ ↔ (ClockTime.new raw).isOk ∧ Unsigned raw := by
  constructor
  · rintro ⟨a,b,c,d,text,digits,hour,minute,parts,hours,minutes⟩
    have numbers := (parts_number text digits).symm.trans parts
    simp only [Option.some.injEq,Prod.mk.injEq] at numbers
    obtain ⟨rfl,rfl⟩ := numbers
    obtain ⟨first,second,third,fourth⟩ := digits
    have text : utf8 raw = [a,b,58,c,d] := text
    have early : parseU8 [a,b] = some (number a b) := (parseU8_two (digit_unsigned first) _).mpr ⟨first,second,rfl⟩
    have late : parseU8 [c,d] = some (number c d) := (parseU8_two (digit_unsigned third) _).mpr ⟨third,fourth,rfl⟩
    have accepted : ClockTime.new raw = .ok ⟨raw⟩ := by
      simp [ClockTime.new,text,early,late,Nat.not_lt.mpr hours,Nat.not_lt.mpr minutes]
    refine ⟨by simp [accepted,Except.isOk,Except.toBool],?_,?_⟩
    · simpa [text] using digit_unsigned first
    · simpa [text] using digit_unsigned third
  · rintro ⟨accepted,unsigned,unsigned_⟩
    cases made : ClockTime.new raw with
    | error e =>
      rw [made] at accepted
      cases accepted
    | ok t =>
      obtain ⟨rfl,a,b,c,d,hour,minute,text,early,late,hours,minutes⟩ := clockTime_new_parts made
      rw [text] at unsigned unsigned_
      obtain ⟨first,second,rfl⟩ := (parseU8_two (by simpa using unsigned) _).mp early
      obtain ⟨third,fourth,rfl⟩ := (parseU8_two (by simpa using unsigned_) _).mp late
      exact ⟨a,b,c,d,text,⟨first,second,third,fourth⟩,_,_,parts_number text ⟨first,second,third,fourth⟩,hours,minutes⟩

def rsplitOnce (separator : Char) : List Char → Option (List Char × List Char)
  | [] => none
  | c::rest =>
    match rsplitOnce separator rest with
    | some (before,after) => some (c::before,after)
    | none => if c = separator then some ([],rest) else none

theorem rsplitOnce_last {separator : Char} (before after : List Char) (apart : separator ∉ after) :
    rsplitOnce separator (before ++ separator::after) = some (before,after) := by
  have final : ∀ text : List Char,separator ∉ text → rsplitOnce separator text = none := by
    intro text
    induction text with
    | nil => intro _; rfl
    | cons c rest ih =>
      intro missing
      obtain ⟨other,missing⟩ := not_or.mp (List.mem_cons.not.mp missing)
      simp [rsplitOnce,ih missing,Ne.symm other]
  induction before with
  | nil => simp [rsplitOnce,final after apart]
  | cons c rest ih => simp [rsplitOnce,ih]

end EvoCore.PlanSchema
