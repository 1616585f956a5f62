import EvoCore.Checks
import Mathlib

namespace EvoCore.Catalogues
open Checks

structure Shelf where
  name : String
  shape : Nat
  shapeSupports : List Nat
deriving DecidableEq,Repr

structure Rack where
  name : String
  charter : String
  shelves : List Shelf
deriving DecidableEq,Repr

structure SubjectType where
  name : String
deriving DecidableEq,Repr

inductive TypeConstraint where
  | single (name : String)
  | multiple (names : List String)
deriving DecidableEq,Repr

def TypeConstraint.accepts (subjectType : String) : TypeConstraint → Bool
  | .single t => t == "*" || t == subjectType
  | .multiple ts => ts.any (· == subjectType)

def TypeConstraint.names : TypeConstraint → List String
  | .single t => [t]
  | .multiple ts => ts

structure RelationPredicate where
  predicate : String
  sourceType : TypeConstraint
  targetType : TypeConstraint
  inverse : Option String
deriving DecidableEq,Repr

structure ReconciliationPair where
  id : String
  composerShelf : String
  wardenShelf : String
  triggerVariants : List String
deriving DecidableEq,Repr

structure Catalogue where
  schemaVersion : Nat
  racks : List Rack
  subjects : List SubjectType
  relations : List RelationPredicate
  reconciliationPairs : List ReconciliationPair
deriving DecidableEq,Repr

def catalogueSchemaMin : Nat := 1
def catalogueSchemaMax : Nat := 1

def qualified (rack : Rack) (shelf : Shelf) : String := rack.name ++ "." ++ shelf.name

-- split_once: at the first separator.
def splitOnce (separator : Char) : List Char → Option (List Char × List Char)
  | [] => none
  | c::rest =>
    if c = separator then some ([],rest)
    else (splitOnce separator rest).map fun parts => (c::parts.1,parts.2)

def findShelf (c : Catalogue) (qualifiedName : String) : Option Shelf :=
  (splitOnce '.' qualifiedName.toList).bind fun parts =>
    (c.racks.find? fun r => r.name.toList == parts.1).bind fun rack =>
      rack.shelves.find? fun s => s.name.toList == parts.2

def findPredicate (c : Catalogue) (name : String) : Option RelationPredicate :=
  c.relations.find? fun p => p.predicate == name

def findSubjectType (c : Catalogue) (name : String) : Option SubjectType :=
  c.subjects.find? fun s => s.name == name

-- As a list: only membership is asked for.
def collectQualifiedShelves (c : Catalogue) : List String :=
  c.racks.flatMap fun rack => rack.shelves.map (qualified rack)

abbrev Verdict := Except String Unit

def validateSchemaVersion (c : Catalogue) : Verdict :=
  refuseIf (c.schemaVersion < catalogueSchemaMin || catalogueSchemaMax < c.schemaVersion)
    s!"catalogue schema_version {c.schemaVersion} is out of range; this steward supports [{catalogueSchemaMin}, {catalogueSchemaMax}]"

def dotted (name : String) : Bool := name.toList.contains '.'

def validateSupport (rack : Rack) (shelf : Shelf) (seen : List Nat) (v : Nat) : Verdict :=
  refuseIf (seen.contains v) s!"shelf {rack.name}.{shelf.name}: shape_supports has duplicate entry {v}"

def validateShelf (rack : Rack) (seen : List String) (shelf : Shelf) : Verdict := do
  refuseIf shelf.name.isEmpty s!"shelf with empty name in rack {rack.name}"
  refuseIf (dotted shelf.name) s!"shelf name must not contain '.': {rack.name}.{shelf.name}"
  refuseIf (seen.contains shelf.name) s!"duplicate shelf name {shelf.name} in rack {rack.name}"
  refuseIf (shelf.shapeSupports.contains shelf.shape)
    s!"shelf {rack.name}.{shelf.name}: shape_supports must not contain the current shape {shelf.shape}; only OLDER shapes belong in this list"
  each (validateSupport rack shelf) id [] shelf.shapeSupports

def validateRack (seen : List String) (rack : Rack) : Verdict := do
  refuseIf rack.name.isEmpty "rack with empty name"
  refuseIf (dotted rack.name) s!"rack name must not contain '.': {rack.name}"
  refuseIf rack.charter.isEmpty s!"rack {rack.name} has empty charter"
  refuseIf (seen.contains rack.name) s!"duplicate rack name: {rack.name}"
  each (validateShelf rack) Shelf.name [] rack.shelves

def validateRacks (c : Catalogue) : Verdict := each validateRack Rack.name [] c.racks

def validateSubject (seen : List String) (subject : SubjectType) : Verdict := do
  refuseIf subject.name.isEmpty "subject type with empty name"
  refuseIf (dotted subject.name) s!"subject type name must not contain '.': {subject.name}"
  refuseIf (subject.name == "*") "subject type name '*' is reserved (wildcard in predicate type constraints)"
  refuseIf (seen.contains subject.name) s!"duplicate subject type: {subject.name}"

def validateSubjects (c : Catalogue) : Verdict := each validateSubject SubjectType.name [] c.subjects

def validateRelation (seen : List String) (pred : RelationPredicate) : Verdict := do
  refuseIf pred.predicate.isEmpty "relation predicate with empty name"
  refuseIf (dotted pred.predicate) s!"predicate name must not contain '.': {pred.predicate}"
  refuseIf (seen.contains pred.predicate) s!"duplicate relation predicate: {pred.predicate}"
  refuseIf (pred.sourceType == .multiple []) s!"predicate {pred.predicate} has empty source_type list"
  refuseIf (pred.targetType == .multiple []) s!"predicate {pred.predicate} has empty target_type list"

def validateRelations (c : Catalogue) : Verdict := each validateRelation RelationPredicate.predicate [] c.relations

def validateReference (c : Catalogue) (predicate label name : String) : Verdict :=
  refuseIf (name != "*" && (findSubjectType c name).isNone)
    s!"predicate {predicate} {label} references undeclared subject type: {name}"

def validateRelationTypeReferences (c : Catalogue) : Verdict :=
  forM c.relations fun pred => do
    forM pred.sourceType.names (validateReference c pred.predicate "source_type")
    forM pred.targetType.names (validateReference c pred.predicate "target_type")

def validateInverse (c : Catalogue) (pred : RelationPredicate) : Verdict :=
  match pred.inverse with
  | none => .ok ()
  | some inverseName =>
    match findPredicate c inverseName with
    | none => .error s!"predicate {pred.predicate} declares inverse {inverseName} but that predicate is not declared"
    | some inverse => do
      refuseIf (inverse.sourceType != pred.targetType)
        s!"predicate {pred.predicate} and its declared inverse {inverseName} have mismatched types: {inverseName}'s source_type must equal {pred.predicate}'s target_type"
      refuseIf (inverse.targetType != pred.sourceType)
        s!"predicate {pred.predicate} and its declared inverse {inverseName} have mismatched types: {inverseName}'s target_type must equal {pred.predicate}'s source_type"
      match inverse.inverse with
      | some back =>
        refuseIf (back != pred.predicate)
          s!"predicate {pred.predicate} declares inverse {inverseName}, but {inverseName}'s own inverse is {back} (expected {pred.predicate})"
      | none =>
        .error s!"predicate {pred.predicate} declares inverse {inverseName}, but {inverseName} does not declare its own inverse back to {pred.predicate}"

def validateInverses (c : Catalogue) : Verdict := forM c.relations (validateInverse c)

def validateReconciliationPair (c : Catalogue) (seen : List String) (pair : ReconciliationPair) : Verdict := do
  refuseIf pair.id.isEmpty "reconciliation pair with empty id"
  refuseIf (seen.contains pair.id) s!"duplicate reconciliation pair id: {pair.id}"
  refuseIf (!(collectQualifiedShelves c).contains pair.composerShelf)
    s!"reconciliation pair {pair.id}: composer_shelf {pair.composerShelf} is not declared in the catalogue"
  refuseIf (!(collectQualifiedShelves c).contains pair.wardenShelf)
    s!"reconciliation pair {pair.id}: warden_shelf {pair.wardenShelf} is not declared in the catalogue"
  refuseIf pair.triggerVariants.isEmpty s!"reconciliation pair {pair.id}: trigger_variants must not be empty"

def validateReconciliationPairs (c : Catalogue) : Verdict :=
  each (validateReconciliationPair c) ReconciliationPair.id [] c.reconciliationPairs

def validate (c : Catalogue) : Verdict := do
  validateSchemaVersion c
  validateRacks c
  validateSubjects c
  validateRelations c
  validateRelationTypeReferences c
  validateInverses c
  validateReconciliationPairs c

variable {c : Catalogue} {rack : Rack} {shelf : Shelf} {pred inverse : RelationPredicate} {q name : String}

structure ShelfFine (shelf : Shelf) : Prop where
  named : shelf.name ≠ ""
  undotted : dotted shelf.name = false
  older : shelf.shape ∉ shelf.shapeSupports
  supports : shelf.shapeSupports.Nodup

structure RackFine (rack : Rack) : Prop where
  named : rack.name ≠ ""
  undotted : dotted rack.name = false
  chartered : rack.charter ≠ ""
  apart : (rack.shelves.map Shelf.name).Nodup
  shelves : ∀ shelf ∈ rack.shelves,ShelfFine shelf

structure SubjectFine (subject : SubjectType) : Prop where
  named : subject.name ≠ ""
  undotted : dotted subject.name = false
  concrete : subject.name ≠ "*"

structure RelationFine (pred : RelationPredicate) : Prop where
  named : pred.predicate ≠ ""
  undotted : dotted pred.predicate = false
  source : pred.sourceType ≠ .multiple []
  target : pred.targetType ≠ .multiple []

def Refers (c : Catalogue) (constraint : TypeConstraint) : Prop :=
  ∀ name ∈ constraint.names,name = "*" ∨ (findSubjectType c name).isSome = true

@[mk_iff] structure Inverts (pred inverse : RelationPredicate) : Prop where
  source : inverse.sourceType = pred.targetType
  target : inverse.targetType = pred.sourceType
  back : inverse.inverse = some pred.predicate

structure PairFine (c : Catalogue) (pair : ReconciliationPair) : Prop where
  named : pair.id ≠ ""
  composer : pair.composerShelf ∈ collectQualifiedShelves c
  warden : pair.wardenShelf ∈ collectQualifiedShelves c
  triggered : pair.triggerVariants ≠ []

-- What the passes let through, pass by pass.
structure Validated (c : Catalogue) : Prop where
  version : catalogueSchemaMin ≤ c.schemaVersion ∧ c.schemaVersion ≤ catalogueSchemaMax
  racksApart : (c.racks.map Rack.name).Nodup
  racks : ∀ rack ∈ c.racks,RackFine rack
  subjectsApart : (c.subjects.map SubjectType.name).Nodup
  subjects : ∀ subject ∈ c.subjects,SubjectFine subject
  relationsApart : (c.relations.map RelationPredicate.predicate).Nodup
  relations : ∀ pred ∈ c.relations,RelationFine pred
  references : ∀ pred ∈ c.relations,Refers c pred.sourceType ∧ Refers c pred.targetType
  inverses : ∀ pred ∈ c.relations,∀ name ∈ pred.inverse,∃ inverse ∈ findPredicate c name,Inverts pred inverse
  pairsApart : (c.reconciliationPairs.map ReconciliationPair.id).Nodup
  pairs : ∀ pair ∈ c.reconciliationPairs,PairFine c pair

theorem empty_iff : name.isEmpty = false ↔ name ≠ "" := by simp

theorem validateShelf_ok (seen : List String) (shelf : Shelf) :
    validateShelf rack seen shelf = .ok () ↔ shelf.name ∉ seen ∧ ShelfFine shelf := by
  have supports : each (validateSupport rack shelf) id [] shelf.shapeSupports = .ok () ↔ shelf.shapeSupports.Nodup := by
    rw [@each_fresh _ _ _ _ _ (fun _ => True) _ (by simp [validateSupport])]
    simp
  simp only [validateShelf,bind_ok,refuseIf_ok,supports,empty_iff,List.contains_eq_mem,decide_eq_false_iff_not]
  constructor
  · intro passed
    obtain ⟨named,undotted,fresh,older,apart⟩ := passed
    exact ⟨fresh,named,undotted,older,apart⟩
  · intro fine
    obtain ⟨fresh,named,undotted,older,apart⟩ := fine
    exact ⟨named,undotted,fresh,older,apart⟩

theorem validateRack_ok (seen : List String) (rack : Rack) :
    validateRack seen rack = .ok () ↔ rack.name ∉ seen ∧ RackFine rack := by
  simp only [validateRack,bind_ok,refuseIf_ok,each_fresh validateShelf_ok,empty_iff,List.contains_eq_mem,
    decide_eq_false_iff_not]
  constructor
  · intro passed
    obtain ⟨named,undotted,chartered,fresh,apart,shelves⟩ := passed
    exact ⟨fresh,named,undotted,chartered,apart,shelves⟩
  · intro fine
    obtain ⟨fresh,named,undotted,chartered,apart,shelves⟩ := fine
    exact ⟨named,undotted,chartered,fresh,apart,shelves⟩

theorem validateSubject_ok (seen : List String) (subject : SubjectType) :
    validateSubject seen subject = .ok () ↔ subject.name ∉ seen ∧ SubjectFine subject := by
  simp only [validateSubject,bind_ok,refuseIf_ok,empty_iff,List.contains_eq_mem,decide_eq_false_iff_not,beq_eq_false_iff_ne]
  constructor
  · intro passed
    obtain ⟨named,undotted,concrete,fresh⟩ := passed
    exact ⟨fresh,named,undotted,concrete⟩
  · intro fine
    obtain ⟨fresh,named,undotted,concrete⟩ := fine
    exact ⟨named,undotted,concrete,fresh⟩

theorem validateRelation_ok (seen : List String) (pred : RelationPredicate) :
    validateRelation seen pred = .ok () ↔ pred.predicate ∉ seen ∧ RelationFine pred := by
  simp only [validateRelation,bind_ok,refuseIf_ok,empty_iff,List.contains_eq_mem,decide_eq_false_iff_not,beq_eq_false_iff_ne]
  constructor
  · intro passed
    obtain ⟨named,undotted,fresh,source,target⟩ := passed
    exact ⟨fresh,named,undotted,source,target⟩
  · intro fine
    obtain ⟨fresh,named,undotted,source,target⟩ := fine
    exact ⟨named,undotted,fresh,source,target⟩

theorem references_ok {constraint : TypeConstraint} {predicate label : String} :
    (∀ name ∈ constraint.names,validateReference c predicate label name = .ok ()) ↔ Refers c constraint := by
  simp only [validateReference,refuseIf_ok,Refers]
  refine forall₂_congr fun name _ => ?_
  by_cases star : name = "*" <;> simp [star]

theorem validateInverse_ok : validateInverse c pred = .ok () ↔
    ∀ name ∈ pred.inverse,∃ inverse ∈ findPredicate c name,Inverts pred inverse := by
  cases declared : pred.inverse with
  | none => simp [validateInverse,declared]
  | some inverseName =>
    cases there : findPredicate c inverseName with
    | none => simp [validateInverse,declared,there]
    | some inverse =>
      cases back : inverse.inverse with
      | none => simp [validateInverse,declared,there,back,inverts_iff]
      | some other => simp [validateInverse,declared,there,back,inverts_iff]

theorem validateReconciliationPair_ok (seen : List String) (pair : ReconciliationPair) :
    validateReconciliationPair c seen pair = .ok () ↔ pair.id ∉ seen ∧ PairFine c pair := by
  simp only [validateReconciliationPair,bind_ok,refuseIf_ok,empty_iff,List.contains_eq_mem,decide_eq_false_iff_not,
    Bool.not_eq_false',decide_eq_true_eq,List.isEmpty_eq_false_iff]
  constructor
  · intro passed
    obtain ⟨named,fresh,composer,warden,triggered⟩ := passed
    exact ⟨fresh,named,composer,warden,triggered⟩
  · intro fine
    obtain ⟨fresh,named,composer,warden,triggered⟩ := fine
    exact ⟨named,fresh,composer,warden,triggered⟩

theorem validate_exact : validate c = .ok () ↔ Validated c := by
  have version : validateSchemaVersion c = .ok () ↔
      catalogueSchemaMin ≤ c.schemaVersion ∧ c.schemaVersion ≤ catalogueSchemaMax := by
    simp [validateSchemaVersion]
  simp only [validate,bind_ok,version,validateRacks,each_fresh validateRack_ok,validateSubjects,each_fresh validateSubject_ok,
    validateRelations,each_fresh validateRelation_ok,validateRelationTypeReferences,forM_ok,references_ok,validateInverses,
    validateInverse_ok,validateReconciliationPairs,each_fresh validateReconciliationPair_ok]
  constructor
  · intro passed
    obtain ⟨inRange,⟨racksApart,racks⟩,⟨subjectsApart,subjects⟩,⟨relationsApart,relations⟩,references,inverses,pairsApart,pairs⟩ := passed
    exact ⟨inRange,racksApart,racks,subjectsApart,subjects,relationsApart,relations,references,inverses,pairsApart,pairs⟩
  · intro valid
    exact ⟨valid.version,⟨valid.racksApart,valid.racks⟩,⟨valid.subjectsApart,valid.subjects⟩,
      ⟨valid.relationsApart,valid.relations⟩,valid.references,valid.inverses,valid.pairsApart,valid.pairs⟩

def shelfAt (c : Catalogue) (i j : Nat) : Option (String × Shelf) :=
  (c.racks[i]?).bind fun rack => (rack.shelves[j]?).map fun shelf => (qualified rack shelf,shelf)

structure ShelvesFound (c : Catalogue) : Prop where
  exactly : ∀ q,(findShelf c q).isSome = true ↔ q ∈ collectQualifiedShelves c
  one : ∀ q ∈ collectQualifiedShelves c,∃ i j shelf,shelfAt c i j = some (q,shelf) ∧ findShelf c q = some shelf ∧
    ∀ i' j' other,shelfAt c i' j' = some (q,other) → i' = i ∧ j' = j

-- Following inverse links leads back, over constraints that change sides.
def InversesSwap (c : Catalogue) : Prop :=
  ∀ pred ∈ c.relations,∀ name ∈ pred.inverse,findPredicate c pred.predicate = some pred ∧
    ∃ inverse ∈ findPredicate c name,inverse ∈ c.relations ∧ Inverts pred inverse

structure Accepts (c : Catalogue) (constraint : TypeConstraint) : Prop where
  wildcard : "*" ∈ constraint.names → ∀ subject ∈ c.subjects,constraint.accepts subject.name = true
  listed : "*" ∉ constraint.names → (∀ subject ∈ c.subjects,constraint.accepts subject.name = true ↔ subject.name ∈ constraint.names) ∧
    (∀ name ∈ constraint.names,∃ subject ∈ c.subjects,subject.name = name) ∧ constraint.names ≠ []

structure Usable (c : Catalogue) : Prop where
  shelves : ShelvesFound c
  inverses : InversesSwap c
  constraints : ∀ pred ∈ c.relations,Accepts c pred.sourceType ∧ Accepts c pred.targetType

-- A list that mentions the wildcard names every declared type beside it.
def SpelledOut (c : Catalogue) : TypeConstraint → Prop
  | .single _ => True
  | .multiple ts => "*" ∈ ts → ∀ subject ∈ c.subjects,subject.name ∈ ts

instance spelledOutDecidable (c : Catalogue) : (constraint : TypeConstraint) → Decidable (SpelledOut c constraint)
  | .single _ => inferInstanceAs (Decidable True)
  | .multiple ts => inferInstanceAs (Decidable ("*" ∈ ts → ∀ subject ∈ c.subjects,subject.name ∈ ts))

theorem splitOnce_first {separator : Char} {before after : List Char} (apart : separator ∉ before) :
    splitOnce separator (before ++ separator::after) = some (before,after) := by
  induction before with
  | nil => simp [splitOnce]
  | cons c rest ih =>
    have other := List.ne_of_not_mem_cons apart
    simp [splitOnce,Ne.symm other,ih (List.not_mem_of_not_mem_cons apart)]

theorem splitOnce_back {separator : Char} {text before after : List Char} (found : splitOnce separator text = some (before,after)) :
    text = before ++ separator::after := by
  induction text generalizing before with
  | nil => cases found
  | cons c rest ih =>
    rw [splitOnce] at found
    split at found
    next equal => cases found; simp [equal]
    next other =>
      obtain ⟨parts,split_,same⟩ := Option.map_eq_some_iff.mp found
      cases same
      simp [ih split_]

theorem qualified_toList : (qualified rack shelf).toList = rack.name.toList ++ '.'::shelf.name.toList := by
  simp [qualified]

theorem toList_beq (a b : String) : (a.toList == b.toList) = (a == b) := by
  rw [Bool.eq_iff_iff,beq_iff_eq,beq_iff_eq,String.toList_inj]

theorem dotted_iff : dotted name = false ↔ '.' ∉ name.toList := by simp [dotted]

theorem shelfAt_iff {i j : Nat} : shelfAt c i j = some (q,shelf) ↔
    ∃ rack,c.racks[i]? = some rack ∧ rack.shelves[j]? = some shelf ∧ qualified rack shelf = q := by
  simp only [shelfAt,Option.bind_eq_some_iff,Option.map_eq_some_iff,Prod.mk.injEq]
  constructor
  · intro placed
    obtain ⟨rack,atRack,other,atShelf,same,rfl⟩ := placed
    exact ⟨rack,atRack,atShelf,same⟩
  · intro placed
    obtain ⟨rack,atRack,atShelf,same⟩ := placed
    exact ⟨rack,atRack,shelf,atShelf,same,rfl⟩

theorem findShelf_qualified (valid : Validated c) (inRack : rack ∈ c.racks) (inShelves : shelf ∈ rack.shelves) :
    findShelf c (qualified rack shelf) = some shelf := by
  have fine := valid.racks rack inRack
  rw [findShelf,qualified_toList,splitOnce_first (dotted_iff.mp fine.undotted)]
  simp only [toList_beq,Option.bind_some]
  rw [key_found valid.racksApart inRack,Option.bind_some,key_found fine.apart inShelves]

theorem mem_collect : q ∈ collectQualifiedShelves c ↔ ∃ rack ∈ c.racks,∃ shelf ∈ rack.shelves,qualified rack shelf = q := by
  simp [collectQualifiedShelves]

theorem findShelf_collected (found : (findShelf c q).isSome = true) : q ∈ collectQualifiedShelves c := by
  obtain ⟨shelf,there⟩ := Option.isSome_iff_exists.mp found
  simp only [findShelf,Option.bind_eq_some_iff] at there
  obtain ⟨parts,split_,rack,inRacks,inShelves⟩ := there
  have rackName : rack.name.toList = parts.1 := by simpa using List.find?_some inRacks
  have shelfName : shelf.name.toList = parts.2 := by simpa using List.find?_some inShelves
  refine mem_collect.mpr ⟨rack,List.mem_of_find?_eq_some inRacks,shelf,List.mem_of_find?_eq_some inShelves,?_⟩
  rw [← String.toList_inj,qualified_toList,rackName,shelfName]
  exact (splitOnce_back split_).symm

-- The first dot ends the name of the rack, so a qualified name gives both names back.
theorem qualified_parts {other : Rack} {otherShelf : Shelf} (undotted : dotted rack.name = false) (otherUndotted : dotted other.name = false)
    (same : qualified other otherShelf = qualified rack shelf) : other.name = rack.name ∧ otherShelf.name = shelf.name := by
  have lists := congrArg String.toList same
  rw [qualified_toList,qualified_toList] at lists
  have split_ := congrArg (splitOnce '.') lists
  rw [splitOnce_first (dotted_iff.mp undotted),splitOnce_first (dotted_iff.mp otherUndotted)] at split_
  simpa [String.toList_inj] using split_

theorem shelves_found (valid : Validated c) : ShelvesFound c := by
  constructor
  case exactly =>
    intro q
    refine ⟨findShelf_collected,?_⟩
    intro collected
    obtain ⟨rack,inRacks,shelf,inShelves,rfl⟩ := mem_collect.mp collected
    rw [findShelf_qualified valid inRacks inShelves]
    rfl
  case one =>
    intro q collected
    obtain ⟨rack,inRacks,shelf,inShelves,rfl⟩ := mem_collect.mp collected
    obtain ⟨i,atI⟩ := List.mem_iff_getElem?.mp inRacks
    obtain ⟨j,atJ⟩ := List.mem_iff_getElem?.mp inShelves
    refine ⟨i,j,shelf,shelfAt_iff.mpr ⟨rack,atI,atJ,rfl⟩,findShelf_qualified valid inRacks inShelves,?_⟩
    intro i' j' other placed
    obtain ⟨rack',atI',atJ',same⟩ := shelfAt_iff.mp placed
    have fine := valid.racks rack inRacks
    have undotted := (valid.racks rack' (List.mem_of_getElem? atI')).undotted
    obtain ⟨sameRack,sameShelf⟩ := qualified_parts fine.undotted undotted same
    obtain rfl := key_position valid.racksApart atI' atI sameRack
    obtain rfl := Option.some.inj (atI.symm.trans atI')
    exact ⟨rfl,key_position fine.apart atJ' atJ sameShelf⟩

theorem inverses_swap (valid : Validated c) : InversesSwap c := by
  intro pred inRelations name declared
  obtain ⟨inverse,there,inverts⟩ := valid.inverses pred inRelations name declared
  exact ⟨key_found valid.relationsApart inRelations,inverse,there,List.mem_of_find?_eq_some there,inverts⟩

theorem mem_declared : (findSubjectType c name).isSome = true ↔ ∃ subject ∈ c.subjects,subject.name = name := by
  simp [findSubjectType,List.find?_isSome]

theorem accepts_multiple {ts : List String} : (TypeConstraint.multiple ts).accepts name = true ↔ name ∈ ts := by
  simp [TypeConstraint.accepts]

-- A constraint does what its names say unless a list mentions the wildcard and leaves a type out.
theorem accepts_iff {constraint : TypeConstraint} (refers : Refers c constraint) (filled : constraint ≠ .multiple []) :
    Accepts c constraint ↔ SpelledOut c constraint := by
  have declared : "*" ∉ constraint.names → ∀ name ∈ constraint.names,∃ subject ∈ c.subjects,subject.name = name := by
    intro plain name member
    rcases refers name member with rfl | there
    · exact absurd member plain
    · exact mem_declared.mp there
  cases constraint with
  | single t =>
    refine iff_of_true ⟨?_,?_⟩ trivial
    · intro wild subject _
      have star : t = "*" := (List.mem_singleton.mp wild).symm
      simp [TypeConstraint.accepts,star]
    · intro plain
      have other : t ≠ "*" := fun same => plain (by simp [TypeConstraint.names,same])
      refine ⟨?_,declared plain,by simp [TypeConstraint.names]⟩
      intro subject _
      simp only [TypeConstraint.accepts,TypeConstraint.names,beq_false_of_ne other,Bool.false_or,beq_iff_eq,List.mem_singleton]
      exact eq_comm
  | multiple ts =>
    constructor
    · intro accepts wild subject member
      exact accepts_multiple.mp (accepts.wildcard wild subject member)
    · intro spelled
      constructor
      case wildcard => exact fun wild subject member => accepts_multiple.mpr (spelled wild subject member)
      case listed =>
        intro plain
        refine ⟨fun subject _ => accepts_multiple,declared plain,?_⟩
        intro empty
        exact filled (congrArg TypeConstraint.multiple empty)

theorem validated_usable_exactly (c : Catalogue) (valid : validate c = .ok ()) :
    Usable c ↔ ∀ pred ∈ c.relations,SpelledOut c pred.sourceType ∧ SpelledOut c pred.targetType := by
  have parts := validate_exact.mp valid
  have each_ : ∀ pred ∈ c.relations,(Accepts c pred.sourceType ∧ Accepts c pred.targetType) ↔
      (SpelledOut c pred.sourceType ∧ SpelledOut c pred.targetType) := by
    intro pred member
    have fine := parts.relations pred member
    have refers := parts.references pred member
    exact and_congr (accepts_iff refers.1 fine.source) (accepts_iff refers.2 fine.target)
  constructor
  · intro usable pred member
    exact (each_ pred member).mp (usable.constraints pred member)
  · intro spelled
    exact ⟨shelves_found parts,inverses_swap parts,fun pred member => (each_ pred member).mpr (spelled pred member)⟩

-- Tracks may be part of anything; their albums hold tracks.
def music : Catalogue :=
  ⟨1,[⟨"audio","plays music",[⟨"delivery",2,[1]⟩]⟩],[⟨"track"⟩,⟨"album"⟩],
    [⟨"part_of",.single "*",.multiple ["album","track"],some "holds"⟩,⟨"holds",.multiple ["album","track"],.single "*",some "part_of"⟩],
    [⟨"audio.pair","audio.delivery","audio.delivery",["PluginAdmitted"]⟩]⟩

theorem music_usable : Usable music :=
  (validated_usable_exactly music (by decide)).mpr (by decide)

-- The wildcard as the one entry of a list: validated, and no type is accepted.
def listedStar : Catalogue := {music with relations := [⟨"part_of",.multiple ["*"],.single "album",none⟩]}

theorem listedStar_unusable : validate listedStar = .ok () ∧ ¬Usable listedStar ∧
    ∀ subject ∈ listedStar.subjects,(TypeConstraint.multiple ["*"]).accepts subject.name = false := by
  refine ⟨by decide,?_,by decide⟩
  intro usable
  have accepts := usable.constraints ⟨"part_of",.multiple ["*"],.single "album",none⟩ (by decide)
  exact absurd (accepts.1.wildcard (by decide) ⟨"track"⟩ (by decide)) (by decide)

end EvoCore.Catalogues
