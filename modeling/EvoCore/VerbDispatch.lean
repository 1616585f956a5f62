import EvoCore.RouterOccupancy

namespace EvoCore.Router
open Tables Runs

inductive InteractionShape where
  | respondent
  | warden
deriving DecidableEq,Repr

structure RespondentCapabilities where
  requestTypes : List String
  responseBudgetMs : Nat
deriving DecidableEq,Repr

-- Of a functional plugin: the other kinds never come to the router.
structure Manifest where
  interaction : InteractionShape
  respondent : Option RespondentCapabilities
  stockings : List Stocking
deriving DecidableEq,Repr

inductive ManifestError where
  | noStocking
  | stockingRoleMismatch (index : Nat) (shelf : String) (stockingRole : StockingRole) (pluginInteraction : InteractionShape)
  | stockingShelfDuplicate (shelf : String)
  | stockingVerbNotDeclared (index : Nat) (shelf verb : String)
  | stockingVerbOverlap (verb : String)
  | stockingVerbsUnstocked (verbs : List String)
deriving DecidableEq,Repr

def StockingRole.isCompatibleWithInteraction : StockingRole → InteractionShape → Bool
  | .warden,.warden => true
  | .warden,.respondent => false
  | .respondent,_ => true
  | .composer,_ => true
  | .factory,_ => true

def checkRoles (interaction : InteractionShape) : Nat → List Stocking → Except ManifestError Unit
  | _,[] => .ok ()
  | index,stocking::rest =>
    if stocking.role.isCompatibleWithInteraction interaction then checkRoles interaction (index+1) rest
    else .error (.stockingRoleMismatch index stocking.shelf stocking.role interaction)

def checkShelves : List String → List Stocking → Except ManifestError Unit
  | _,[] => .ok ()
  | seenShelves,stocking::rest =>
    if stocking.shelf ∈ seenShelves then .error (.stockingShelfDuplicate stocking.shelf)
    else checkShelves (stocking.shelf::seenShelves) rest

def stockVerbs (pluginVerbs : List String) (index : Nat) (shelf : String) : List String → List String → Except ManifestError (List String)
  | stockedVerbs,[] => .ok stockedVerbs
  | stockedVerbs,verb::rest =>
    if verb ∉ pluginVerbs then .error (.stockingVerbNotDeclared index shelf verb)
    else if verb ∈ stockedVerbs then .error (.stockingVerbOverlap verb)
    else stockVerbs pluginVerbs index shelf (verb::stockedVerbs) rest

def checkVerbs (pluginVerbs : List String) : Nat → List String → List Stocking → Except ManifestError (List String)
  | _,stockedVerbs,[] => .ok stockedVerbs
  | index,stockedVerbs,stocking::rest =>
    match stockVerbs pluginVerbs index stocking.shelf stockedVerbs stocking.requestTypes with
    | .error e => .error e
    | .ok stockedVerbs => checkVerbs pluginVerbs (index+1) stockedVerbs rest

def Manifest.pluginVerbs (manifest : Manifest) : List String := (manifest.respondent.map RespondentCapabilities.requestTypes).getD []

-- What is stocked is declared by then, so the sets differ where a verb is left over.
def checkUnion (pluginVerbs stockedVerbs : List String) : Except ManifestError Unit :=
  let unstocked := pluginVerbs.filter fun verb => verb ∉ stockedVerbs
  if unstocked = [] then .ok () else .error (.stockingVerbsUnstocked unstocked.dedup.mergeSort)

def validateStockingPartition (manifest : Manifest) : Except ManifestError Unit :=
  if manifest.stockings = [] then .error .noStocking
  else
    match checkRoles manifest.interaction 0 manifest.stockings with
    | .error e => .error e
    | .ok () =>
      match checkShelves [] manifest.stockings with
      | .error e => .error e
      | .ok () =>
        match checkVerbs manifest.pluginVerbs 0 [] manifest.stockings with
        | .error e => .error e
        | .ok stockedVerbs => checkUnion manifest.pluginVerbs stockedVerbs

-- The two fields that a dispatch of a request reads.
structure EnforcementPolicy where
  allowedRequestTypes : Option (List String)
  defaultRequestDeadlineMs : Option Nat
deriving DecidableEq,Repr

def EnforcementPolicy.fromManifest (manifest : Manifest) : EnforcementPolicy :=
  ⟨manifest.respondent.map RespondentCapabilities.requestTypes,manifest.respondent.map RespondentCapabilities.responseBudgetMs⟩

-- The declared list, where it does not have the type.
def EnforcementPolicy.undeclared (policy : EnforcementPolicy) (requestType : String) : Option (List String) :=
  match policy.allowedRequestTypes with
  | some allowed => if requestType ∈ allowed then none else some allowed
  | none => none

inductive AdmittedHandle where
  | respondent
  | warden
  | wardenWithRespondent
deriving DecidableEq,Repr

-- What an entry carries behind its Arc; the handle is gone once it is unloaded.
structure Admission where
  manifest : Manifest
  handle : Option AdmittedHandle

def Admission.policy (admission : Admission) : EnforcementPolicy := .fromManifest admission.manifest

structure Request where
  requestType : String
  payload : List UInt8
  correlationId : Nat
  deadline : Option Nat
  instanceId : Option String
deriving DecidableEq,Repr

inductive Refusal where
  | noPlugin (shelf : String)
  | notDeclared (shelf requestType : String) (declared : List String)
  | unloaded (shelf : String)
  | notRespondent (shelf : String)
deriving DecidableEq,Repr

def Request.withDefault (request : Request) (policy : EnforcementPolicy) (now : Nat) : Request :=
  match request.deadline with
  | some _ => request
  | none => { request with deadline := policy.defaultRequestDeadlineMs.map (now + ·) }

def dispatch (admission : Admission) (now : Nat) (shelf : String) (entry : PluginEntry) (request : Request) : Except Refusal (PluginEntry × Request) :=
  match admission.policy.undeclared request.requestType with
  | some allowed => .error (.notDeclared shelf request.requestType allowed)
  | none =>
    match admission.handle with
    | none => .error (.unloaded shelf)
    | some .respondent => .ok (entry,request.withDefault admission.policy now)
    | some .wardenWithRespondent => .ok (entry,request.withDefault admission.policy now)
    | some .warden => .error (.notRespondent shelf)

def routed (inner : RouterInner) (shelf verb : String) : Option PluginEntry := (lookupForVerb inner shelf verb).or (lookup inner shelf)

-- The plugin that is handed the request, and the request as it gets it.
def handleRequest (behind : PluginEntry → Admission) (inner : RouterInner) (now : Nat) (shelf : String) (request : Request) :
    Except Refusal (PluginEntry × Request) :=
  match routed inner shelf request.requestType with
  | none => .error (.noPlugin shelf)
  | some entry => dispatch (behind entry) now shelf entry request

section
variable {inner after : RouterInner} {entry existing plugin : PluginEntry} {shelf verb : String} {manifest : Manifest} {admission : Admission}
  {behind : PluginEntry → Admission} {now : Nat} {request : Request}

theorem stockVerbs_ok {declared seen verbs stocked : List String} (ok : stockVerbs declared index shelf seen verbs = .ok stocked) :
    stocked = verbs.reverse++seen ∧ ∀ v ∈ verbs,v ∈ declared := by
  induction verbs generalizing seen with
  | nil =>
    cases ok
    simp
  | cons first rest ih =>
    unfold stockVerbs at ok
    split at ok
    · cases ok
    · rename_i known
      split at ok
      · cases ok
      · obtain ⟨shape,all⟩ := ih ok
        refine ⟨by simp [shape],?_⟩
        intro v member
        rcases List.mem_cons.mp member with rfl | later
        · exact not_not.mp known
        · exact all v later

theorem checkVerbs_ok {declared seen stocked : List String} {stockings : List Stocking} (ok : checkVerbs declared index seen stockings = .ok stocked) :
    (∀ s ∈ stockings,∀ v ∈ s.requestTypes,v ∈ declared) ∧ ∀ v ∈ stocked,v ∈ seen ∨ ∃ s ∈ stockings,v ∈ s.requestTypes := by
  induction stockings generalizing index seen with
  | nil =>
    cases ok
    simp
  | cons first rest ih =>
    unfold checkVerbs at ok
    split at ok
    · cases ok
    · rename_i stocked_ here
      obtain ⟨shape,all⟩ := stockVerbs_ok here
      obtain ⟨declared_,source⟩ := ih ok
      constructor
      · intro s member
        rcases List.mem_cons.mp member with rfl | later
        · exact all
        · exact declared_ s later
      · intro v member
        rcases source v member with there | ⟨s,later,mine⟩
        · rw [shape,List.mem_append,List.mem_reverse] at there
          rcases there with now_ | before
          · exact .inr ⟨first,List.mem_cons_self,now_⟩
          · exact .inl before
        · exact .inr ⟨s,List.mem_cons_of_mem _ later,mine⟩

theorem checkUnion_ok {declared stocked : List String} (ok : checkUnion declared stocked = .ok ()) : ∀ v ∈ declared,v ∈ stocked := by
  unfold checkUnion at ok
  dsimp only at ok
  split at ok
  · rename_i none_
    simpa [List.filter_eq_nil_iff] using none_
  · cases ok

theorem partition_ok (ok : validateStockingPartition manifest = .ok ()) :
    verb ∈ manifest.pluginVerbs ↔ ∃ s ∈ manifest.stockings,verb ∈ s.requestTypes := by
  unfold validateStockingPartition at ok
  split at ok
  · cases ok
  · split at ok
    · cases ok
    · split at ok
      · cases ok
      · split at ok
        · cases ok
        · rename_i stocked checked
          obtain ⟨declared,source⟩ := checkVerbs_ok checked
          constructor
          · intro member
            rcases source verb (checkUnion_ok ok verb member) with none_ | found
            · cases none_
            · exact found
          · rintro ⟨s,member,mine⟩
            exact declared s member verb mine

def Declares (admission : Admission) (verb : String) : Prop := verb ∈ admission.manifest.pluginVerbs

def Answers (admission : Admission) : Prop := admission.handle = some .respondent ∨ admission.handle = some .wardenWithRespondent

-- How the admission paths build an entry: of a manifest that was validated, with a handle, and
-- with one that answers requests only for a manifest with a respondent section.
structure Vouched (admission : Admission) (entry : PluginEntry) : Prop where
  valid : validateStockingPartition admission.manifest = .ok ()
  stocked : entry.stockings ≠ [] → entry.stockings = admission.manifest.stockings
  loaded : admission.handle ≠ none
  section_ : Answers admission → admission.manifest.respondent ≠ none

def admitVouched (behind : PluginEntry → Admission) (inner : RouterInner) (entry : { e : PluginEntry // Vouched (behind e) e }) : RouterInner :=
  (insert inner entry.1).1

def Hands (behind : PluginEntry → Admission) (inner : RouterInner) (now : Nat) (shelf : String) (request : Request) (plugin : PluginEntry) : Prop :=
  ∃ sent,handleRequest behind inner now shelf request = .ok (plugin,sent)

def Entitled (admission : Admission) (shelf verb : String) (entry : PluginEntry) : Prop :=
  Owns shelf verb entry ∨ entry.stockings = [] ∧ Declares admission verb

def Enforced (behind : PluginEntry → Admission) (inner : RouterInner) (now : Nat) (shelf : String) (request : Request) : Prop :=
  ∀ plugin,Hands behind inner now shelf request plugin ↔ plugin ∈ inner.occupants shelf ∧ Entitled (behind plugin) shelf request.requestType plugin

-- No legacy entry shadows a stocked verb, the first occupant does not stand in with a verb that
-- it stocks on another shelf, and who is entitled is no bare warden.
structure Clear (behind : PluginEntry → Admission) (inner : RouterInner) (shelf verb : String) : Prop where
  unshadowed : ∀ first,lookup inner shelf = some first → first.stockings = [] → ∀ e ∈ inner.occupants shelf,¬Owns shelf verb e
  elsewhere : ∀ first,lookup inner shelf = some first → first.stockings ≠ [] → (∀ e ∈ inner.occupants shelf,¬Owns shelf verb e) →
    Answers (behind first) → ∀ other,¬Owns other verb first
  answering : ∀ e ∈ inner.occupants shelf,Entitled (behind e) shelf verb e → Answers (behind e)

theorem owns_exact : (∃ shelf,Owns shelf verb entry) ↔ ∃ s ∈ entry.stockings,verb ∈ s.requestTypes := by
  constructor
  · rintro ⟨shelf,s,found,mine⟩
    exact ⟨s,List.mem_of_find?_eq_some found,mine⟩
  · rintro ⟨s,member,mine⟩
    exact ⟨s.shelf,s,stockingFor_mem member,mine⟩

theorem declares_exact (vouched : Vouched (behind entry) entry) (full : entry.stockings ≠ []) :
    Declares (behind entry) verb ↔ ∃ shelf,Owns shelf verb entry := by
  unfold Declares
  rw [owns_exact,partition_ok vouched.valid,vouched.stocked full]

theorem owns_full (owns : Owns shelf verb entry) : entry.stockings ≠ [] := by
  obtain ⟨s,member,-⟩ := owns_exact.mp ⟨shelf,owns⟩
  exact List.ne_nil_of_mem member

theorem entitled_declares (vouched : Vouched (behind entry) entry) (entitled : Entitled (behind entry) shelf verb entry) : Declares (behind entry) verb := by
  rcases entitled with owns | ⟨-,declared⟩
  · exact (declares_exact vouched (owns_full owns)).mpr ⟨shelf,owns⟩
  · exact declared

theorem dispatch_ok (vouched : Vouched admission entry) :
    (∃ sent,dispatch admission now shelf entry request = .ok (plugin,sent)) ↔
      plugin = entry ∧ Declares admission request.requestType ∧ Answers admission := by
  have section_ := vouched.section_
  have loaded := vouched.loaded
  unfold Answers at section_ ⊢
  unfold dispatch Declares Manifest.pluginVerbs EnforcementPolicy.undeclared Admission.policy EnforcementPolicy.fromManifest
  cases handle : admission.handle with
  | none => exact absurd handle loaded
  | some kind =>
    cases declared : admission.manifest.respondent with
    | none =>
      rw [handle] at section_
      cases kind with
      | respondent => exact absurd declared (section_ (.inl rfl))
      | warden => simp
      | wardenWithRespondent => exact absurd declared (section_ (.inr rfl))
    | some respondent =>
      by_cases listed : request.requestType ∈ respondent.requestTypes
      · cases kind <;> simp [listed,eq_comm]
      · simp [listed]

theorem lookup_head : lookup inner shelf = (inner.occupants shelf).head? := by
  unfold lookup RouterInner.occupants
  cases get inner.byShelf shelf <;> rfl

theorem lookupForVerb_find : lookupForVerb inner shelf verb =
    (inner.occupants shelf).find? fun e => e.stockings = [] || (e.stockingFor shelf).any fun s => verb ∈ s.requestTypes := by
  unfold lookupForVerb RouterInner.occupants
  cases get inner.byShelf shelf <;> rfl

-- An occupant that comes after another has stockings and shares no verb with it there.
def Later (shelf : String) (a b : PluginEntry) : Prop := b.stockings ≠ [] ∧ ∀ verb,Owns shelf verb a → ¬Owns shelf verb b

structure Arranged (behind : PluginEntry → Admission) (inner : RouterInner) : Prop where
  later : ∀ shelf,(inner.occupants shelf).Pairwise (Later shelf)
  vouched : ∀ shelf,∀ e ∈ inner.occupants shelf,Vouched (behind e) e

theorem thins_sublist (thins : Thins inner after) : (after.occupants shelf).Sublist (inner.occupants shelf) := by
  unfold RouterInner.occupants
  cases there : get after.byShelf shelf with
  | none => exact List.nil_sublist _
  | some occupants =>
    rcases thins shelf occupants there with same | ⟨-,old,before,sub⟩
    · rw [same]
    · rw [before]
      exact sub

theorem thins_arranged (thins : Thins inner after) (arranged : Arranged behind inner) : Arranged behind after :=
  ⟨fun shelf => (arranged.later shelf).sublist (thins_sublist thins),
    fun shelf e member => arranged.vouched shelf e ((thins_sublist thins).subset member)⟩

theorem later_newcomer (member : stocking ∈ entry.stockings) (calm : ¬Clash stocking existing) : Later stocking.shelf existing entry := by
  refine ⟨List.ne_nil_of_mem member,?_⟩
  rintro verb ⟨s,theirs,owned⟩ ⟨s',ours,claimed⟩
  cases Option.some.inj ((stockingFor_mem member).symm.trans ours)
  exact calm (.inr ⟨s,theirs,.inr ⟨verb,owned,claimed⟩⟩)

theorem occupyAll_arranged (arranged : Arranged behind inner) (vouched : Vouched (behind entry) entry) (calm : ∀ s ∈ entry.stockings,¬Clashes inner s) :
    Arranged behind (entry.shelves.foldl (occupy entry) inner) := by
  constructor
  · intro shelf
    rw [occupants_occupyAll]
    split
    · rename_i mine
      obtain ⟨s,member,rfl⟩ := List.mem_map.mp mine
      refine List.pairwise_append.mpr ⟨arranged.later s.shelf,List.pairwise_singleton _ _,?_⟩
      intro existing there newcomer last
      cases List.mem_singleton.mp last
      exact later_newcomer member fun clash => calm s member ⟨existing,there,clash⟩
    · exact arranged.later shelf
  · intro shelf e there
    rw [occupants_occupyAll] at there
    split at there
    · rcases List.mem_append.mp there with before | last
      · exact arranged.vouched shelf e before
      · cases List.mem_singleton.mp last
        exact vouched
    · exact arranged.vouched shelf e there

theorem occupants_legacy (x : String) : (RouterInner.mk (inner.byShelf.insert shelf [entry]) order).occupants x =
    if x = shelf then [entry] else inner.occupants x := by
  unfold RouterInner.occupants
  rw [get_insert]
  split <;> rfl

theorem insert_arranged (arranged : Arranged behind inner) (vouched : Vouched (behind entry) entry) : Arranged behind (insert inner entry).1 := by
  by_cases bare : entry.stockings = []
  · unfold insert
    rw [if_pos bare]
    split
    · exact arranged
    · constructor
      · intro x
        rw [occupants_legacy]
        split
        · exact List.pairwise_singleton _ _
        · exact arranged.later x
      · intro x e there
        rw [occupants_legacy] at there
        split at there
        · cases List.mem_singleton.mp there
          exact vouched
        · exact arranged.vouched x e there
  · rcases insert_cases inner bare with ⟨calm,result⟩ | ⟨before,s,after,error,shape,-,-,result⟩
    · rw [result]
      exact occupyAll_arranged arranged vouched calm
    · rw [result]
      have apart := entry.apart
      rw [shape,List.map_append] at apart
      exact thins_arranged (rolled_thins apart.of_append_left) arranged

theorem admitted_arranged (entries : List { e : PluginEntry // Vouched (behind e) e }) : Arranged behind (run (admitVouched behind) .new entries) := by
  apply run_keeps
  · intro inner entry arranged
    exact insert_arranged arranged entry.2
  · constructor
    · intro shelf
      exact List.Pairwise.nil
    · intro shelf e none_
      cases none_

theorem owner_only (arranged : Arranged behind inner) (here : existing ∈ inner.occupants shelf) (there : plugin ∈ inner.occupants shelf)
    (mine : Owns shelf verb existing) (yours : Owns shelf verb plugin) : plugin = existing := by
  have forth : (inner.occupants shelf).Pairwise fun a b => Owns shelf verb a → Owns shelf verb b → b = a := by
    refine (arranged.later shelf).imp ?_
    intro a b later mine yours
    exact absurd yours (later.2 verb mine)
  have back : (inner.occupants shelf).Pairwise fun a b => Owns shelf verb b → Owns shelf verb a → a = b := by
    refine (arranged.later shelf).imp ?_
    intro a b later yours mine
    exact absurd yours (later.2 verb mine)
  exact List.Pairwise.forall_of_forall_of_flip (fun e _ _ _ => rfl) forth back here there mine yours

theorem first_full (arranged : Arranged behind inner) (found : lookup inner shelf = some existing) (full : existing.stockings ≠ []) :
    ∀ e ∈ inner.occupants shelf,e.stockings ≠ [] := by
  rw [lookup_head] at found
  obtain ⟨rest,shape⟩ := List.head?_eq_some_iff.mp found
  have pairs := arranged.later shelf
  rw [shape,List.pairwise_cons] at pairs
  rw [shape]
  intro e member
  rcases List.mem_cons.mp member with rfl | later
  · exact full
  · exact (pairs.1 e later).1

theorem legacy_first (arranged : Arranged behind inner) (there : plugin ∈ inner.occupants shelf) (bare : plugin.stockings = []) :
    lookup inner shelf = some plugin := by
  rw [lookup_head]
  cases shape : inner.occupants shelf with
  | nil =>
    rw [shape] at there
    cases there
  | cons first rest =>
    have pairs := arranged.later shelf
    rw [shape,List.pairwise_cons] at pairs
    rw [shape] at there
    rcases List.mem_cons.mp there with rfl | later
    · rfl
    · exact absurd bare (pairs.1 plugin later).1

theorem routed_mem (found : routed inner shelf verb = some plugin) : plugin ∈ inner.occupants shelf := by
  unfold routed at found
  rw [lookupForVerb_find,lookup_head,Option.or_eq_some_iff] at found
  rcases found with verb_ | ⟨-,first⟩
  · exact List.mem_of_find?_eq_some verb_
  · exact List.mem_of_head? first

theorem routed_legacy (found : lookup inner shelf = some existing) (bare : existing.stockings = []) : routed inner shelf verb = some existing := by
  unfold routed
  rw [lookupForVerb_find]
  rw [lookup_head] at found
  obtain ⟨rest,shape⟩ := List.head?_eq_some_iff.mp found
  rw [shape]
  simp [bare]

theorem routed_owner (arranged : Arranged behind inner) (full : ∀ e ∈ inner.occupants shelf,e.stockings ≠ [])
    (there : plugin ∈ inner.occupants shelf) (owns : Owns shelf verb plugin) : routed inner shelf verb = some plugin := by
  unfold routed
  rw [lookupForVerb_find]
  cases found : (inner.occupants shelf).find? fun e => e.stockings = [] || (e.stockingFor shelf).any fun s => verb ∈ s.requestTypes with
  | none => exact absurd ((serves_exact plugin shelf verb).mpr (.inr owns)) (List.find?_eq_none.mp found plugin there)
  | some owner =>
    have member := List.mem_of_find?_eq_some found
    rcases (serves_exact owner shelf verb).mp (List.find?_eq_some_iff_append.mp found).1 with bare | mine
    · exact absurd bare (full owner member)
    · rw [owner_only arranged member there mine owns]
      rfl

theorem routed_fallback (full : ∀ e ∈ inner.occupants shelf,e.stockings ≠ []) (free : ∀ e ∈ inner.occupants shelf,¬Owns shelf verb e) :
    routed inner shelf verb = lookup inner shelf := by
  unfold routed
  rw [lookupForVerb_find]
  have none_ : (inner.occupants shelf).find? (fun e => e.stockings = [] || (e.stockingFor shelf).any fun s => verb ∈ s.requestTypes) = none := by
    rw [List.find?_eq_none]
    intro e member serves
    rcases (serves_exact e shelf verb).mp serves with bare | mine
    · exact full e member bare
    · exact free e member mine
  rw [none_]
  rfl

theorem hands_iff (arranged : Arranged behind inner) : Hands behind inner now shelf request plugin ↔
    routed inner shelf request.requestType = some plugin ∧ Declares (behind plugin) request.requestType ∧ Answers (behind plugin) := by
  unfold Hands handleRequest
  cases found : routed inner shelf request.requestType with
  | none => simp
  | some entry =>
    dsimp only
    rw [dispatch_ok (arranged.vouched shelf entry (routed_mem found))]
    constructor
    · rintro ⟨rfl,rest⟩
      exact ⟨rfl,rest⟩
    · rintro ⟨same,rest⟩
      cases same
      exact ⟨rfl,rest⟩

theorem enforced_needs (arranged : Arranged behind inner) (enforced : Enforced behind inner now shelf request) :
    Clear behind inner shelf request.requestType := by
  constructor
  · intro first found bare e member owns
    have handed := (hands_iff arranged).mp ((enforced e).mpr ⟨member,.inl owns⟩)
    cases Option.some.inj ((routed_legacy found bare).symm.trans handed.1)
    exact owns_full owns bare
  · intro first found full free answers other owns
    have member : first ∈ inner.occupants shelf := List.mem_of_head? (lookup_head.symm.trans found)
    have route := (routed_fallback (first_full arranged found full) free).trans found
    have declared := (declares_exact (arranged.vouched shelf first member) full).mpr ⟨other,owns⟩
    rcases ((enforced first).mp ((hands_iff arranged).mpr ⟨route,declared,answers⟩)).2 with mine | ⟨bare,-⟩
    · exact free first member mine
    · exact full bare
  · intro e member entitled
    exact ((hands_iff arranged).mp ((enforced e).mpr ⟨member,entitled⟩)).2.2

theorem clear_entitled (arranged : Arranged behind inner) (clear : Clear behind inner shelf verb) (there : plugin ∈ inner.occupants shelf)
    (entitled : Entitled (behind plugin) shelf verb plugin) : routed inner shelf verb = some plugin := by
  rcases entitled with owns | ⟨bare,-⟩
  · refine routed_owner arranged ?_ there owns
    intro e member bare
    exact clear.unshadowed e (legacy_first arranged member bare) bare plugin there owns
  · exact routed_legacy (legacy_first arranged there bare) bare

theorem clear_handed (arranged : Arranged behind inner) (clear : Clear behind inner shelf verb) (found : routed inner shelf verb = some plugin)
    (declared : Declares (behind plugin) verb) (answers : Answers (behind plugin)) : Entitled (behind plugin) shelf verb plugin := by
  have there := routed_mem found
  by_cases bare : plugin.stockings = []
  · exact .inr ⟨bare,declared⟩
  · by_contra outside
    have full : ∀ e ∈ inner.occupants shelf,e.stockings ≠ [] := by
      intro e member bare_
      cases Option.some.inj ((routed_legacy (legacy_first arranged member bare_) bare_).symm.trans found)
      exact bare bare_
    have free : ∀ e ∈ inner.occupants shelf,¬Owns shelf verb e := by
      intro e member owns
      cases Option.some.inj ((routed_owner arranged full member owns).symm.trans found)
      exact outside (.inl owns)
    have first := (routed_fallback full free).symm.trans found
    obtain ⟨other,owns⟩ := (declares_exact (arranged.vouched shelf plugin there) bare).mp declared
    exact clear.elsewhere plugin first bare free answers other owns

theorem partition_enforced (entries : List { e : PluginEntry // Vouched (behind e) e }) (now : Nat) (shelf : String) (request : Request) :
    Enforced behind (run (admitVouched behind) .new entries) now shelf request ↔
      Clear behind (run (admitVouched behind) .new entries) shelf request.requestType := by
  have arranged := admitted_arranged entries
  constructor
  · exact enforced_needs arranged
  · intro clear plugin
    rw [hands_iff arranged]
    constructor
    · rintro ⟨found,declared,answers⟩
      exact ⟨routed_mem found,clear_handed arranged clear found declared answers⟩
    · rintro ⟨there,entitled⟩
      exact ⟨clear_entitled arranged clear there entitled,entitled_declares (arranged.vouched shelf plugin there) entitled,
        clear.answering plugin there entitled⟩

-- The library plugin's browse verb belongs to its own shelf, and is handed over on the queue's.
def library : PluginEntry :=
  ⟨1,"com.library","audio.library",[⟨"audio.library",.respondent,["browse"]⟩,⟨"audio.queue",.respondent,["enqueue"]⟩],by decide⟩

def libraryAdmission : Admission := ⟨⟨.respondent,some ⟨["browse","enqueue"],250⟩,library.stockings⟩,some .respondent⟩

theorem library_vouched : Vouched libraryAdmission library := by
  constructor
  · rfl
  · intro _
    rfl
  · decide
  · intro _
    decide

theorem browse_crosses : ¬∀ (behind : PluginEntry → Admission) (entries : List { e : PluginEntry // Vouched (behind e) e }) (now : Nat)
    (shelf : String) (request : Request),Enforced behind (run (admitVouched behind) .new entries) now shelf request := by
  intro always
  have enforced := always (fun _ => libraryAdmission) [⟨library,library_vouched⟩] 0 "audio.queue" ⟨"browse",[],7,none,none⟩ library
  have handed : handleRequest (fun _ => libraryAdmission) (insert .new library).1 0 "audio.queue" ⟨"browse",[],7,none,none⟩ =
      .ok (library,⟨"browse",[],7,some 250,none⟩) := by decide
  rcases (enforced.mp ⟨_,handed⟩).2 with ⟨s,found,mine⟩ | ⟨bare,-⟩
  · have queue : library.stockingFor "audio.queue" = some ⟨"audio.queue",.respondent,["enqueue"]⟩ := by decide
    rw [queue] at found
    cases Option.some.inj found
    exact absurd mine (by decide)
  · cases bare

end

end EvoCore.Router
