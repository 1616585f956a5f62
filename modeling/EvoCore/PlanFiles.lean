import EvoCore.Occurrences
import EvoCore.PlanRegistry
import EvoCore.PlanSchema

namespace EvoCore.PlanFiles
open PlanSchema Tables Bytes
open PlanRegistry (PlanBook PlanEngineError)
open Appointments (Chrono Clock)

-- FilesystemPlanStorage of crates/evo/src/plans/storage.rs on a tree of directories without links, and
-- PlanEngine::register on top of it.
abbrev Name := List Char
abbrev Path := List Name

structure Filesystem where
  dirs : List Path
  files : Table Path String

structure Formats where
  fromJson : String → Except String Plan
  fromToml : String → Except String Plan
  toTomlPretty : Plan → Except String String

def Formats.RoundTrips (formats : Formats) : Prop := ∀ p text,formats.toTomlPretty p = .ok text → formats.fromToml text = .ok p

inductive Document where
  | json (text : String)
  | toml (text : String)
deriving DecidableEq,Repr

def Formats.decode (formats : Formats) : Document → Except String Plan
  | .json text => formats.fromJson text
  | .toml text => formats.fromToml text

inductive PlanStorageError where
  | io
  | tomlDecode (detail : String)
  | tomlEncode (detail : String)
  | invalidPlan (e : Plans.PlanError)
  | idMismatch (filename planId : PlanId)
deriving DecidableEq,Repr

-- Which of a call's system calls succeed, apart from what the tree itself refuses.
structure Disk where
  writes : Bool
  renames : Bool
  deletes : Bool
deriving DecidableEq,Repr

def Filesystem.walk (fs : Filesystem) : Path → List Name → Option Path
  | dir,[] => if dir ∈ fs.dirs then some dir else none
  | dir,name::rest => if dir ∈ fs.dirs then fs.walk (if name = ['.','.'] then dir.dropLast else dir ++ [name]) rest else none

-- Path::join and the system's lookup: a text that starts with a separator leaves the root. The last name
-- is never one of the dots, it ends with the extension.
def Filesystem.resolve (fs : Filesystem) (root : Path) (text : List Char) : Option Path :=
  if '\x00' ∈ text then none
  else
    let names := (text.splitOn '/').filter fun name => name ≠ [] && name ≠ ['.']
    match names.getLast? with
    | none => none
    | some name => (fs.walk (if text.head? = some '/' then [] else root) names.dropLast).map (· ++ [name])

def extensionText : List Char := ['.','t','o','m','l']

def planPath (id : PlanId) : List Char := id.value.toList ++ extensionText
def tmpPath (id : PlanId) : List Char := id.value.toList ++ extensionText ++ ['.','t','m','p']

def Filesystem.write (fs : Filesystem) (path : Option Path) (text : String) (succeeds : Bool) : Option Filesystem :=
  match path with
  | none => none
  | some path => if succeeds ∧ path ∉ fs.dirs then some {fs with files := fs.files.insert path text} else none

def Filesystem.rename (fs : Filesystem) (old new : Option Path) (succeeds : Bool) : Option Filesystem :=
  match old,new with
  | some old,some new =>
    match get fs.files old with
    | none => none
    | some text => if succeeds ∧ new ∉ fs.dirs then some {fs with files := (fs.files.erase old).insert new text} else none
  | _,_ => none

section
variable (formats : Formats) (root : Path)

-- The tree afterwards, and what the call says.
def save (fs : Filesystem) (p : Plan) (disk : Disk) : Filesystem × Except PlanStorageError Unit :=
  match p.registered.validate with
  | .error e => (fs,.error (.invalidPlan e))
  | .ok () =>
    match formats.toTomlPretty p with
    | .error e => (fs,.error (.tomlEncode e))
    | .ok text =>
      match fs.write (fs.resolve root (tmpPath p.id)) text disk.writes with
      | none => (fs,.error .io)
      | some written =>
        match written.rename (fs.resolve root (tmpPath p.id)) (fs.resolve root (planPath p.id)) disk.renames with
        | none => (written,.error .io)
        | some renamed => (renamed,.ok ())

def load (fs : Filesystem) (id : PlanId) (reads : Bool) : Except PlanStorageError (Option Plan) :=
  if '\x00' ∈ planPath id then .error .io
  else
    match (fs.resolve root (planPath id)).bind (get fs.files ·) with
    | none => .ok none
    | some raw =>
      if reads then
        match formats.fromToml raw with
        | .error e => .error (.tomlDecode e)
        | .ok p => if p.id = id then .ok (some p) else .error (.idMismatch id p.id)
      else .error .io

-- Path::extension and Path::file_stem: a dot in front is part of the stem.
def stemOf (name : Name) : Option Name :=
  match rsplitOnce '.' name with
  | some (before,after) => if before ≠ [] ∧ '.'::after = extensionText then some before else none
  | none => none

-- One entry of the root; what is skipped is only logged.
def listedPlan (reads : Path → Bool) (path : Path) (raw : String) : Option Plan :=
  match path.getLast? with
  | none => none
  | some name =>
    if path.dropLast ≠ root then none
    else
      match stemOf name with
      | none => none
      | some stem =>
        match PlanId.new (String.ofList stem) with
        | .error _ => none
        | .ok id =>
          if reads path then
            match formats.fromToml raw with
            | .error _ => none
            | .ok p => if p.id = id then some p else none
          else none

def list (fs : Filesystem) (reads : Path → Bool) : List Plan :=
  fs.files.entries.filterMap fun entry => listedPlan formats root reads entry.1 entry.2

def delete (fs : Filesystem) (id : PlanId) (disk : Disk) : Filesystem :=
  match fs.resolve root (planPath id) with
  | none => fs
  | some path => if disk.deletes then {fs with files := fs.files.erase path} else fs

-- The registry of the engine; the files that the book itself could hold are not used.
structure Engine where
  book : PlanBook
  fs : Filesystem

variable {δ τ ω : Type} [DecidableEq δ] (chrono : Chrono δ τ ω)

def register (s : Engine) (p : Plan) (first : List Plans.PlanId) (clock : Clock) (disk : Disk) : Engine × Except PlanEngineError Unit :=
  match s.book.refusal p.registered first with
  | some e => (s,.error e)
  | none =>
    match save formats root s.fs p disk with
    | (fs,.error _) => ({s with fs := fs},.error .storage)
    | (fs,.ok ()) =>
      match s.book.scheduleTrigger chrono p.registered clock with
      | .error e => ({s with fs := delete root fs p.id disk},.error e)
      | .ok scheduled => (⟨{scheduled with plans := scheduled.plans.insert p.registered.id p.registered},fs⟩,.ok ())

end

-- What the documentation of the types promises of a plan, and of its file.
structure SchemaKept (formats : Formats) (root : Path) (p : Plan) (fs : Filesystem) : Prop where
  id : PlanId.new p.id.value = .ok p.id
  loads : load formats root fs p.id true = .ok (some p)
  lists : ∃ name,fs.resolve root (planPath p.id) = some (root ++ [name]) ∧
    ∀ reads,reads (root ++ [name]) = true → p ∈ list formats root fs reads
  clock : ∀ time days zone,p.trigger = .timeOfDay time days zone → ClockText time
  mask : ∀ time days zone,p.trigger = .timeOfDay time (.custom days) zone → days ≠ [] ∧ days.Nodup
  crossfade : ∀ segment ∈ p.segments,∀ durationMs,segment.transition = .crossfade durationMs → durationMs ≠ 0

-- What the document itself must bring, because nothing on the way checks it.
structure Plain (p : Plan) : Prop where
  id : SafeName p.id.value
  clock : ∀ time days zone,p.trigger = .timeOfDay time days zone → (ClockTime.new time.value).isOk ∧ Unsigned time.value
  mask : ∀ time days zone,p.trigger = .timeOfDay time (.custom days) zone → days.Nodup
  crossfade : ∀ segment ∈ p.segments,∀ durationMs,segment.transition = .crossfade durationMs →
    (TransitionType.checkedCrossfade durationMs).isOk

section
variable {formats : Formats} {root : Path} {fs after : Filesystem} {p : Plan} {δ τ ω : Type} [DecidableEq δ] {chrono : Chrono δ τ ω}

theorem resolve_child (text : List Char) (shown : text ≠ []) (plain : '\x00' ∉ text ∧ '/' ∉ text) (named : text ≠ ['.']) :
    fs.resolve root text = if root ∈ fs.dirs then some (root ++ [text]) else none := by
  have single : text.splitOn '/' = [text] := by
    rw [List.splitOn_eq_splitOnP]
    apply List.splitOnP_eq_singleton
    intro c member
    simp only [beq_eq_false_iff_ne]
    rintro rfl
    exact plain.2 member
  have relative : text.head? ≠ some '/' := by
    intro first
    exact plain.2 (List.mem_of_head? first)
  have names : (text.splitOn '/').filter (fun name => name ≠ [] && name ≠ ['.']) = [text] := by
    simp [single,shown,named]
  simp only [Filesystem.resolve,if_neg plain.1,names,List.getLast?_singleton,if_neg relative,List.dropLast_singleton,Filesystem.walk]
  split <;> rfl

theorem safe_path (safe : SafeName p.id.value) (ending : List Char) (plain : '\x00' ∉ ending ∧ '/' ∉ ending) (long : 1 < ending.length) :
    fs.resolve root (p.id.value.toList ++ ending) = if root ∈ fs.dirs then some (root ++ [p.id.value.toList ++ ending]) else none := by
  have outside : ∀ other,portable other = false → other ∉ p.id.value.toList := by
    intro other apart member
    exact portable_ne (safe.portable other member) apart rfl
  apply resolve_child
  · intro empty
    exact safe.shown (List.append_eq_nil_iff.mp empty).1
  · constructor
    · exact not_or.mpr ⟨outside '\x00' (by decide),plain.1⟩ ∘ List.mem_append.mp
    · exact not_or.mpr ⟨outside '/' (by decide),plain.2⟩ ∘ List.mem_append.mp
  · intro dot
    have length := congrArg List.length dot
    simp at length
    omega

theorem save_written (saved : save formats root fs p disk = (after,.ok ())) : ∃ text old new,formats.toTomlPretty p = .ok text ∧
    fs.resolve root (tmpPath p.id) = some old ∧ fs.resolve root (planPath p.id) = some new ∧ after.dirs = fs.dirs ∧
      get after.files new = some text := by
  unfold save at saved
  split at saved
  · cases saved
  split at saved
  · cases saved
  rename_i text written
  split at saved
  · cases saved
  rename_i tree wrote
  split at saved
  · cases saved
  rename_i renamed moved
  cases saved
  cases target : fs.resolve root (tmpPath p.id) with
  | none =>
    rw [target] at wrote
    cases wrote
  | some old =>
    simp only [target,Filesystem.write] at wrote
    split at wrote
    swap
    · cases wrote
    cases wrote
    cases final : fs.resolve root (planPath p.id) with
    | none =>
      rw [target,final] at moved
      cases moved
    | some new =>
      simp only [target,final,Filesystem.rename,get_insert,if_true] at moved
      split at moved
      swap
      · cases moved
      cases moved
      exact ⟨text,old,new,written,rfl,rfl,rfl,by simp⟩

theorem register_accepted {s : Engine} (accepted : (register formats root chrono s p first clock disk).2 = .ok ()) :
    save formats root s.fs p disk = ((register formats root chrono s p first clock disk).1.fs,.ok ()) ∧
      (s.book.scheduleTrigger chrono p.registered clock).isOk := by
  unfold register at accepted ⊢
  cases refused : s.book.refusal p.registered first with
  | some e =>
    rw [refused] at accepted
    cases accepted
  | none =>
    simp only [refused] at accepted ⊢
    cases saved : save formats root s.fs p disk with | mk fs outcome =>
    cases outcome with
    | error e =>
      simp only [saved] at accepted
      cases accepted
    | ok done =>
      simp only [saved] at accepted ⊢
      cases scheduled : s.book.scheduleTrigger chrono p.registered clock with
      | error e =>
        rw [scheduled] at accepted
        cases accepted
      | ok book => exact ⟨rfl,rfl⟩

theorem weekly_never (chrono : Chrono δ τ ω) (plan : Plans.Plan) (time : String) (zone : Appointments.AppointmentTimeZone) (nowMs : Nat) :
    ∃ e,Appointments.nextFireAfter chrono (PlanRegistry.appointmentSpecFor plan time (.custom []) zone) nowMs 0 = .error e := by
  let walk : Except Appointments.RecurrenceError (Option Nat) :=
    (Appointments.parseTimeOfDay chrono (some time)).bind fun _ => .error .emptyWeeklyDays
  have fires : Appointments.candidateFire chrono (PlanRegistry.appointmentSpecFor plan time (.custom []) zone) nowMs 0 = walk := rfl
  unfold Appointments.nextFireAfter
  rw [if_neg (by simp [Appointments.capReached,PlanRegistry.appointmentSpecFor]),fires]
  unfold walk
  cases Appointments.parseTimeOfDay chrono (some time) with
  | error e => exact ⟨e,rfl⟩
  | ok t => exact ⟨.emptyWeeklyDays,rfl⟩

-- The recurrence of a time-of-day trigger is checked where it is scheduled.
theorem scheduled_mask {book : PlanBook} (trigger : p.trigger = .timeOfDay time (.custom days) zone)
    (scheduled : (book.scheduleTrigger chrono p.registered clock).isOk) : days ≠ [] := by
  rintro rfl
  have shape : p.registered.trigger = .timeOfDay time.value (.custom []) zone := by
    simp only [Plan.registered,trigger,PlanTrigger.registered]
  unfold PlanBook.scheduleTrigger at scheduled
  simp only [shape] at scheduled
  cases wired : book.appointments with
  | none =>
    rw [wired] at scheduled
    cases scheduled
  | some ledger =>
    obtain ⟨e,never⟩ := weekly_never chrono p.registered time.value zone clock.nowMs
    have refused : PlanRegistry.runtimeSchedule chrono ledger PlanRegistry.planEngineCreator
        (PlanRegistry.appointmentSpecFor p.registered time.value (.custom []) zone) (PlanRegistry.actionFor p.registered) clock =
          .error (.recurrence e) := by
      simp only [PlanRegistry.runtimeSchedule,never]
    simp only [wired,refused] at scheduled
    cases scheduled

theorem safe_kept (trips : formats.RoundTrips) (saved : save formats root fs p disk = (after,.ok ())) (safe : SafeName p.id.value) :
    load formats root after p.id true = .ok (some p) ∧ ∃ name,after.resolve root (planPath p.id) = some (root ++ [name]) ∧
      ∀ reads,reads (root ++ [name]) = true → p ∈ list formats root after reads := by
  obtain ⟨text,old,new,written,_,target,dirs,held⟩ := save_written saved
  have ending : planPath p.id = p.id.value.toList ++ extensionText := rfl
  have here : new = root ++ [planPath p.id] := by
    rw [ending,safe_path safe extensionText (by decide) (by decide)] at target
    split at target
    · exact (Option.some.inj target).symm
    · cases target
  subst here
  have found : after.resolve root (planPath p.id) = some (root ++ [planPath p.id]) := by
    rw [← target]
    simp only [ending]
    rw [safe_path safe extensionText (by decide) (by decide),safe_path safe extensionText (by decide) (by decide),dirs]
  have quiet : '\x00' ∉ planPath p.id := by
    intro member
    rcases List.mem_append.mp member with inside | outside
    · exact portable_ne (safe.portable _ inside) (by decide : portable '\x00' = false) rfl
    · exact absurd outside (by decide)
  refine ⟨?_,planPath p.id,found,?_⟩
  · simp only [load,if_neg quiet,found,Option.bind_some,held,trips p text written,if_true]
  · intro reads readable
    refine List.mem_filterMap.mpr ⟨⟨root ++ [planPath p.id],text⟩,(entries_get _).mpr held,?_⟩
    have split_ : rsplitOnce '.' (planPath p.id) = some (p.id.value.toList,['t','o','m','l']) :=
      rsplitOnce_last p.id.value.toList ['t','o','m','l'] (by decide)
    have stem : stemOf (planPath p.id) = some p.id.value.toList := by
      simp [stemOf,split_,safe.shown,extensionText]
    have accepted : PlanId.new (String.ofList p.id.value.toList) = .ok p.id := by
      rw [String.ofList_toList]
      exact (planId_new_exactly p.id.value).mpr safe
    simp only [listedPlan,List.getLast?_concat,List.dropLast_concat,ne_eq,not_true_eq_false,if_false,stem,accepted,readable,if_true,
      trips p text written]

theorem schema_exactly (formats : Formats) (trips : formats.RoundTrips) :
    (∀ (root : Path) (s : Engine) (document : Document) (p : Plan) (first : List Plans.PlanId) (clock : Clock) (disk : Disk),
      formats.decode document = .ok p → (register formats root chrono s p first clock disk).2 = .ok () →
      (SchemaKept formats root p (register formats root chrono s p first clock disk).1.fs ↔ Plain p)) ∧
    ∀ raw t,ClockTime.new raw = .ok t → (ClockText t ↔ Unsigned raw) := by
  constructor
  · intro root s document p first clock disk _ accepted
    obtain ⟨saved,scheduled⟩ := register_accepted accepted
    constructor
    · intro kept
      refine ⟨(planId_new_exactly p.id.value).mp kept.id,?_,?_,?_⟩
      · intro time days zone trigger
        exact (clockTime_exactly time.value).mp (kept.clock time days zone trigger)
      · intro time days zone trigger
        exact (kept.mask time days zone trigger).2
      · intro segment member durationMs fades
        simp [TransitionType.checkedCrossfade,kept.crossfade segment member durationMs fades,Except.isOk,Except.toBool]
    · intro plain
      obtain ⟨loads,lists⟩ := safe_kept trips saved plain.id
      refine ⟨(planId_new_exactly p.id.value).mpr plain.id,loads,lists,?_,?_,?_⟩
      · intro time days zone trigger
        exact (clockTime_exactly time.value).mpr (plain.clock time days zone trigger)
      · intro time days zone trigger
        exact ⟨scheduled_mask trigger scheduled,plain.mask time days zone trigger⟩
      · intro segment member durationMs fades none_
        have checked := plain.crossfade segment member durationMs fades
        rw [none_] at checked
        exact absurd checked (by decide)
  · intro raw t accepted
    have made : t = ⟨raw⟩ := (clockTime_new_parts accepted).1
    subst made
    rw [clockTime_exactly]
    simp [accepted,Except.isOk,Except.toBool]

end

-- The storage root is /var/plans, and the only plan that there is a document of is the one given.
def plansRoot : Path := [['v','a','r'],['p','l','a','n','s']]
def tree : Filesystem := ⟨[[],[['v','a','r']],plansRoot],∅⟩
def host : Engine := ⟨PlanRegistry.freshBook,tree⟩

def onlyPlan (p : Plan) (document : String) : Formats where
  fromJson text := if text = document then .ok p else .error "expected value"
  fromToml text := if text = document then .ok p else .error "expected value"
  toTomlPretty other := if other = p then .ok document else .error "unsupported type"

theorem onlyPlan_trips (p : Plan) (document : String) : (onlyPlan p document).RoundTrips := by
  intro other text written
  simp only [onlyPlan] at written ⊢
  split at written
  · rename_i same
    cases Except.ok.inj written
    rw [if_pos rfl,same]
  · cases written

theorem onlyPlan_reads (p : Plan) (document : String) : (onlyPlan p document).decode (.toml document) = .ok p := if_pos rfl

def evening : Plan := ⟨⟨"evening"⟩,"Evening",.timeOfDay ⟨"06:30"⟩ (.custom [.fri,.sun]) .utc,false,[⟨.duration 60,.crossfade 2000⟩],.stop,0⟩

def eveningText (id : String) : String := "id = \"" ++ id ++ "\"\nname = \"Evening\"\npreempt = false\nlast_modified_ms = 0\n\n" ++
  "[trigger]\nkind = \"time_of_day\"\ntime = \"06:30\"\n\n[trigger.days_of_week]\nkind = \"custom\"\n" ++
  "days = [\"fri\", \"sun\"]\n\n[trigger.timezone]\nkind = \"utc\"\n\n[[segments]]\n\n[segments.content]\nkind = \"item\"\nuri = \"mpd:lullaby\"\n\n" ++
  "[segments.duration]\nkind = \"duration\"\nseconds = 60\n\n[segments.transition]\nkind = \"crossfade\"\nduration_ms = 2000\n\n" ++
  "[on_complete]\nkind = \"stop\"\n\n[authored_by]\nkind = \"user\"\n"

def registered (p : Plan) (document : String) : Engine × Except PlanEngineError Unit :=
  register (onlyPlan p document) plansRoot Appointments.civilChrono host p [] ⟨0,0⟩ ⟨true,true,true⟩

theorem evening_kept :
    SchemaKept (onlyPlan evening (eveningText "evening")) plansRoot evening (registered evening (eveningText "evening")).1.fs := by
  have trips := onlyPlan_trips evening (eveningText "evening")
  have exactly := (@schema_exactly _ _ _ _ Appointments.civilChrono (onlyPlan evening (eveningText "evening")) trips).1 plansRoot host
    (.toml (eveningText "evening")) evening [] ⟨0,0⟩ ⟨true,true,true⟩ (onlyPlan_reads _ _) rfl
  have characters : "evening".toList.all portable = true := by decide
  refine exactly.mpr ⟨⟨by decide,by decide,by decide,List.all_eq_true.mp characters⟩,?_,?_,?_⟩
  · intro time mask zone trigger
    cases trigger
    exact ⟨by decide,by unfold Unsigned; decide⟩
  · intro time days zone trigger
    cases trigger
    decide
  · intro segment member durationMs fades
    cases List.mem_singleton.mp member
    cases fades
    decide

-- The same plan under an id that no constructor makes: its file lands in the root directory. And a time
-- that the constructor makes and parts cannot read.
def escaping : Plan := {evening with id := ⟨"../../evening"⟩}

theorem plan_escapes :
    let text := eveningText "../../evening"
    (onlyPlan escaping text).decode (.toml text) = .ok escaping ∧ (registered escaping text).2 = .ok () ∧
    ¬ SchemaKept (onlyPlan escaping text) plansRoot escaping (registered escaping text).1.fs ∧
    get (registered escaping text).1.fs.files [['e','v','e','n','i','n','g','.','t','o','m','l']] = some text ∧
    ClockTime.new "+1:+2" = .ok ⟨"+1:+2"⟩ ∧ ¬ ClockText ⟨"+1:+2"⟩ ∧ (ClockTime.mk "+1:+2").parts = none := by
  refine ⟨onlyPlan_reads _ _,rfl,?_,rfl,rfl,?_,rfl⟩
  · intro kept
    exact absurd kept.id (by decide)
  · rintro ⟨a,b,c,d,text,⟨digit,_⟩,_⟩
    have plus : (utf8 "+1:+2").head? = some a := by
      rw [text]
      rfl
    have first : (utf8 "+1:+2").head? = some 43 := by decide
    rw [first] at plus
    cases plus
    exact absurd digit (by decide)

end EvoCore.PlanFiles
