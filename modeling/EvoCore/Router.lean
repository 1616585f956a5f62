import EvoCore.Runs
import EvoCore.Tables

namespace EvoCore.Router
open Tables

inductive StockingRole where
  | respondent
  | warden
  | composer
  | factory
deriving DecidableEq,Repr

structure Stocking where
  shelf : String
  role : StockingRole
  requestTypes : List String
deriving DecidableEq,Repr

-- An Arc<PluginEntry>: the address tells apart entries that are alike, so that Arc::ptr_eq is
-- equality. No stockings is the legacy form; a manifest with two on one shelf is refused.
structure PluginEntry where
  address : Nat
  name : String
  shelf : String
  stockings : List Stocking
  apart : (stockings.map Stocking.shelf).Nodup
deriving DecidableEq,Repr

def PluginEntry.stockingFor (entry : PluginEntry) (shelf : String) : Option Stocking :=
  entry.stockings.find? fun s => s.shelf = shelf

def PluginEntry.shelves (entry : PluginEntry) : List String := entry.stockings.map Stocking.shelf

structure RouterInner where
  byShelf : Table String (List PluginEntry)
  admissionOrder : List String

def RouterInner.new : RouterInner := ⟨∅,[]⟩

def RouterInner.occupants (inner : RouterInner) (shelf : String) : List PluginEntry := (get inner.byShelf shelf).getD []

-- The messages name the shelf, the occupant and, where there is one, the verb.
inductive Conflict where
  | warden (shelf occupant : String)
  | legacy (shelf occupant : String)
  | verb (shelf occupant verb : String)
deriving DecidableEq,Repr

def admissionConflict (shelf : String) (role : StockingRole) (verbs : List String) (existing : PluginEntry) : Option Conflict :=
  let existingRole := ((existing.stockingFor shelf).map Stocking.role).getD role
  if existingRole = .warden ∨ role = .warden then some (.warden shelf existing.name)
  else if existing.stockings = [] then some (.legacy shelf existing.name)
  else
    match existing.stockingFor shelf with
    | some es => (es.requestTypes.find? fun v => v ∈ verbs).map fun v => .verb shelf existing.name v
    | none => none

def wouldConflictWithAdmission (inner : RouterInner) (shelf : String) (role : StockingRole) (verbs : List String) : Option Conflict :=
  (get inner.byShelf shelf).bind fun occupants => occupants.findSome? (admissionConflict shelf role verbs)

inductive Overlap where
  | occupant (name : String)
  | verb (name verb : String)
deriving DecidableEq,Repr

inductive AdmissionError where
  | noStockings (plugin : String)
  | occupied (plugin shelf : String)
  | occupiedBy (plugin shelf : String) (conflicting : Overlap)
deriving DecidableEq,Repr

def stockingOverlap (stocking : Stocking) (existing : PluginEntry) : Option Overlap :=
  let existingStocking := existing.stockingFor stocking.shelf
  let existingRole := (existingStocking.map Stocking.role).getD stocking.role
  if existingRole = .warden ∨ stocking.role = .warden then some (.occupant existing.name)
  else
    match existingStocking with
    | some es => (es.requestTypes.find? fun v => v ∈ stocking.requestTypes).map fun v => .verb existing.name v
    | none => none

def overlapWith (inner : RouterInner) (stocking : Stocking) : Option Overlap :=
  (get inner.byShelf stocking.shelf).bind fun occupants => occupants.findSome? (stockingOverlap stocking)

def occupy (entry : PluginEntry) (inner : RouterInner) (shelf : String) : RouterInner :=
  ⟨inner.byShelf.insert shelf (inner.occupants shelf++[entry]),inner.admissionOrder++[shelf]⟩

-- Vec::retain on the occupants of a shelf that is there; without any left it goes.
def kept (keep : PluginEntry → Bool) (occupants : List PluginEntry) : Option (List PluginEntry) :=
  if occupants.filter keep = [] then none else some (occupants.filter keep)

def retainOccupants (keep : PluginEntry → Bool) (byShelf : Table String (List PluginEntry)) (shelf : String) :
    Table String (List PluginEntry) :=
  match (get byShelf shelf).bind (kept keep) with
  | some left => byShelf.insert shelf left
  | none => byShelf.erase shelf

-- Vec::remove at rposition.
def removeLast (order : List String) (shelf : String) : List String := (order.reverse.erase shelf).reverse

def rollback (entry : PluginEntry) (inner : RouterInner) (shelf : String) : RouterInner :=
  ⟨retainOccupants (· ≠ entry) inner.byShelf shelf,removeLast inner.admissionOrder shelf⟩

def stockShelves (entry : PluginEntry) : RouterInner → List String → List Stocking → RouterInner × Option AdmissionError
  | inner,_,[] => (inner,none)
  | inner,inserted,stocking::rest =>
    match overlapWith inner stocking with
    | some conflicting => (inserted.foldl (rollback entry) inner,some (.occupiedBy entry.name stocking.shelf conflicting))
    | none => stockShelves entry (occupy entry inner stocking.shelf) (inserted++[stocking.shelf]) rest

def insertStockings (inner : RouterInner) (entry : PluginEntry) : RouterInner × Option AdmissionError :=
  if entry.stockings = [] then (inner,some (.noStockings entry.name)) else stockShelves entry inner [] entry.stockings

def insert (inner : RouterInner) (entry : PluginEntry) : RouterInner × Option AdmissionError :=
  if entry.stockings = [] then
    if (get inner.byShelf entry.shelf).isSome then (inner,some (.occupied entry.name entry.shelf))
    else (⟨inner.byShelf.insert entry.shelf [entry],inner.admissionOrder++[entry.shelf]⟩,none)
  else insertStockings inner entry

def lookup (inner : RouterInner) (shelf : String) : Option PluginEntry := (get inner.byShelf shelf).bind List.head?

def lookupForVerb (inner : RouterInner) (shelf verb : String) : Option PluginEntry :=
  (get inner.byShelf shelf).bind fun occupants => occupants.find? fun entry =>
    entry.stockings = [] || (entry.stockingFor shelf).any fun s => verb ∈ s.requestTypes

-- Each entry at its first place.
def entriesInOrder (inner : RouterInner) : List PluginEntry := (inner.admissionOrder.flatMap inner.occupants).eraseDups

def evict (plugin : String) (inner : RouterInner) (shelf : String) : RouterInner :=
  match get inner.byShelf shelf with
  | none => inner
  | some occupants =>
    ⟨retainOccupants (·.name ≠ plugin) inner.byShelf shelf,
      if kept (·.name ≠ plugin) occupants = none then inner.admissionOrder.filter (· ≠ shelf) else inner.admissionOrder⟩

-- The first occupant goes, from the shelves of its stockings and from this one.
def remove (inner : RouterInner) (shelf : String) : RouterInner × Option PluginEntry :=
  match lookup inner shelf with
  | none => (inner,none)
  | some entry => ((entry.shelves++[shelf]).foldl (evict entry.name) inner,some entry)

-- The assertion that the shelf is the entry's own is for debug builds.
def replaceInPlace (inner : RouterInner) (shelf : String) (entry : PluginEntry) : RouterInner × Option PluginEntry :=
  let occupants := inner.occupants shelf
  match occupants.findIdx? fun e => e.name = entry.name with
  | some pos => ({ inner with byShelf := inner.byShelf.insert shelf (occupants.set pos entry) },occupants[pos]?)
  | none => ({ inner with byShelf := inner.byShelf.insert shelf [entry] },none)

def collect (entries : List PluginEntry) (entry : PluginEntry) : List PluginEntry :=
  if entry ∈ entries then entries else entries++[entry]

def drainShelves (byShelf : Table String (List PluginEntry)) (entries : List PluginEntry) :
    List String → Table String (List PluginEntry) × List PluginEntry
  | [] => (byShelf,entries)
  | shelf::rest =>
    match get byShelf shelf with
    | some occupants => drainShelves (byShelf.erase shelf) (occupants.foldl collect entries) rest
    | none => drainShelves byShelf entries rest

def drainInReverseAdmissionOrder (inner : RouterInner) : RouterInner × List PluginEntry :=
  let (byShelf,entries) := drainShelves inner.byShelf [] inner.admissionOrder.reverse
  (⟨byShelf,[]⟩,entries)

inductive Action where
  | insert (entry : PluginEntry)
  | remove (shelf : String)
  | replaceInPlace (shelf : String) (entry : PluginEntry)
  | drain

def apply (inner : RouterInner) : Action → RouterInner
  | .insert entry => (insert inner entry).1
  | .remove shelf => (remove inner shelf).1
  | .replaceInPlace shelf entry => (replaceInPlace inner shelf entry).1
  | .drain => (drainInReverseAdmissionOrder inner).1

end EvoCore.Router
