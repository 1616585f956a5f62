import EvoCore.Ledger

namespace EvoCore.Ledger
open Bytes Fields

inductive TextField where
  | entryId
  | ledgerId
  | payloadJson
  | subjectPlugin
  deriving DecidableEq,Repr

def PersistedLedgerEntry.text (entry : PersistedLedgerEntry) : TextField → String
  | .entryId => entry.entryId
  | .ledgerId => entry.ledgerId
  | .payloadJson => entry.payloadJson
  | .subjectPlugin => entry.subjectPlugin.getD ""

def PersistedLedgerEntry.message (entry : PersistedLedgerEntry) : List UInt8 :=
  canonicalSigningMessage entry.entryId entry.ledgerId entry.schemaVersion entry.payloadJson entry.createdAtMs entry.subjectPlugin

-- The six fields a signature is to cover.
def SameSigned (one two : PersistedLedgerEntry) : Prop :=
  one.entryId = two.entryId ∧ one.ledgerId = two.ledgerId ∧ one.schemaVersion = two.schemaVersion ∧
  one.payloadJson = two.payloadJson ∧ one.createdAtMs = two.createdAtMs ∧ one.subjectPlugin = two.subjectPlugin

-- A signature verifies for the message it was made of, and was made of one message.
structure Ideal (crypto : CryptographicServices) : Prop where
  own : ∀ message signature,crypto.verify message signature = true ↔ signature.isSome = true ∧ crypto.sign message = signature
  apart : ∀ one two signature,crypto.sign one = some signature → crypto.sign two = some signature → one = two

-- Rows are told apart by which characters may stand in which text, and whether a plugin that is
-- there may be the empty text.
structure Texts where
  alphabet : TextField → Set Char
  emptyPlugin : Prop

structure Texts.Holds (texts : Texts) (entry : PersistedLedgerEntry) : Prop where
  written : ∀ field,∀ c ∈ (entry.text field).toList,c ∈ texts.alphabet field
  named : entry.subjectPlugin = some "" → texts.emptyPlugin

def Unambiguous (texts : Texts) : Prop :=
  ∀ one two : PersistedLedgerEntry,texts.Holds one → texts.Holds two → one.message = two.message → SameSigned one two

-- A row edited under its signature verifies only where the signed fields are as they were.
def EditsShow (texts : Texts) : Prop :=
  ∀ crypto,Ideal crypto → ∀ row edited : PersistedLedgerEntry,texts.Holds row → texts.Holds edited → edited.signatureBytes = row.signatureBytes →
    verifyEntry crypto row = true → verifyEntry crypto edited = true → SameSigned row edited

-- The NUL character stands in one of the four texts at most.
def Separable (texts : Texts) : Prop :=
  (∀ one two,'\x00' ∈ texts.alphabet one → '\x00' ∈ texts.alphabet two → one = two) ∧ ¬texts.emptyPlugin

variable {texts : Texts} {one two : PersistedLedgerEntry}

theorem message_shape (entry : PersistedLedgerEntry) : entry.message =
    utf8 entry.entryId++0::(utf8 entry.ledgerId++0::(beBytes32 entry.schemaVersion++0::(utf8 entry.payloadJson++0::(beBytes64 entry.createdAtMs++0::
      utf8 (entry.subjectPlugin.getD ""))))) := by
  simp [PersistedLedgerEntry.message,canonicalSigningMessage]

theorem message_mirror (entry : PersistedLedgerEntry) : entry.message =
    ((((utf8 entry.entryId++0::utf8 entry.ledgerId)++0::beBytes32 entry.schemaVersion)++0::utf8 entry.payloadJson)++0::beBytes64 entry.createdAtMs)++0::
      utf8 (entry.subjectPlugin.getD "") := by
  simp [PersistedLedgerEntry.message,canonicalSigningMessage]

theorem text_free (holds : texts.Holds entry) (field : TextField) (free : '\x00' ∉ texts.alphabet field) : 0 ∉ utf8 (entry.text field) := by
  intro member
  have nul : '\x00' ∈ (entry.text field).toList := ascii_mem_utf8 (by decide) member
  exact free (holds.written field _ nul)

theorem fixed_inj {a b x y : List UInt8} (width : a.length = b.length) (same : a++0::x = b++0::y) : a = b ∧ x = y := by
  obtain ⟨head,tail⟩ := List.append_inj same width
  exact ⟨head,(List.cons.inj tail).2⟩

theorem fixed_last_inj {a b x y : List UInt8} (width : x.length = y.length) (same : a++0::x = b++0::y) : a = b ∧ x = y := by
  obtain ⟨head,tail⟩ := List.append_inj' same (by simp [width])
  exact ⟨head,(List.cons.inj tail).2⟩

theorem signed_fields (holds : texts.Holds one) (holds_ : texts.Holds two) (named : ¬texts.emptyPlugin)
    (entryId : utf8 one.entryId = utf8 two.entryId) (ledgerId : utf8 one.ledgerId = utf8 two.ledgerId)
    (version : beBytes32 one.schemaVersion = beBytes32 two.schemaVersion) (payload : utf8 one.payloadJson = utf8 two.payloadJson)
    (created : beBytes64 one.createdAtMs = beBytes64 two.createdAtMs)
    (plugin : utf8 (one.subjectPlugin.getD "") = utf8 (two.subjectPlugin.getD "")) : SameSigned one two := by
  refine ⟨utf8_injective entryId,utf8_injective ledgerId,beBytes32_injective version,utf8_injective payload,beBytes64_injective created,?_⟩
  have texts_same := utf8_injective plugin
  cases first : one.subjectPlugin with
  | none =>
    cases second : two.subjectPlugin with
    | none => rfl
    | some name =>
      rw [first,second] at texts_same
      exact absurd (holds_.named (by rw [second]; exact congrArg some texts_same.symm)) named
  | some name =>
    cases second : two.subjectPlugin with
    | none =>
      rw [first,second] at texts_same
      exact absurd (holds.named (by rw [first]; exact congrArg some texts_same)) named
    | some other =>
      rw [first,second] at texts_same
      exact congrArg some texts_same

theorem separable_field (separable : Separable texts) : ∃ wild,∀ field,field ≠ wild → '\x00' ∉ texts.alphabet field := by
  by_cases some_wild : ∃ wild,'\x00' ∈ texts.alphabet wild
  · obtain ⟨wild,there⟩ := some_wild
    exact ⟨wild,fun field other held => other (separable.1 field wild held there)⟩
  · exact ⟨.entryId,fun field _ held => some_wild ⟨field,held⟩⟩

-- The texts before the wild one are read from the front, those behind it from the end.
theorem separable_unambiguous (separable : Separable texts) : Unambiguous texts := by
  intro one two holds holds_ same
  obtain ⟨wild,free⟩ := separable_field separable
  have apart : ∀ field,field ≠ wild → 0 ∉ utf8 (one.text field) ∧ 0 ∉ utf8 (two.text field) :=
    fun field other => ⟨text_free holds field (free field other),text_free holds_ field (free field other)⟩
  have signed := signed_fields holds holds_ separable.2
  cases wild with
  | subjectPlugin =>
    rw [message_shape,message_shape] at same
    obtain ⟨entryId,rest⟩ := field_inj (apart .entryId (by decide)).1 (apart .entryId (by decide)).2 same
    obtain ⟨ledgerId,rest⟩ := field_inj (apart .ledgerId (by decide)).1 (apart .ledgerId (by decide)).2 rest
    obtain ⟨version,rest⟩ := fixed_inj (by simp) rest
    obtain ⟨payload,rest⟩ := field_inj (apart .payloadJson (by decide)).1 (apart .payloadJson (by decide)).2 rest
    obtain ⟨created,plugin⟩ := fixed_inj (by simp) rest
    exact signed entryId ledgerId version payload created plugin
  | payloadJson =>
    rw [message_shape,message_shape] at same
    obtain ⟨entryId,rest⟩ := field_inj (apart .entryId (by decide)).1 (apart .entryId (by decide)).2 same
    obtain ⟨ledgerId,rest⟩ := field_inj (apart .ledgerId (by decide)).1 (apart .ledgerId (by decide)).2 rest
    obtain ⟨version,rest⟩ := fixed_inj (by simp) rest
    have mirrored : ∀ p t g : List UInt8,p++0::(t++0::g) = (p++0::t)++0::g := fun p t g => by simp
    rw [mirrored,mirrored] at rest
    obtain ⟨rest,plugin⟩ := last_field_inj (apart .subjectPlugin (by decide)).1 (apart .subjectPlugin (by decide)).2 rest
    obtain ⟨payload,created⟩ := fixed_last_inj (by simp) rest
    exact signed entryId ledgerId version payload created plugin
  | ledgerId =>
    rw [message_mirror,message_mirror] at same
    obtain ⟨rest,plugin⟩ := last_field_inj (apart .subjectPlugin (by decide)).1 (apart .subjectPlugin (by decide)).2 same
    obtain ⟨rest,created⟩ := fixed_last_inj (by simp) rest
    obtain ⟨rest,payload⟩ := last_field_inj (apart .payloadJson (by decide)).1 (apart .payloadJson (by decide)).2 rest
    obtain ⟨rest,version⟩ := fixed_last_inj (by simp) rest
    obtain ⟨entryId,ledgerId⟩ := field_inj (apart .entryId (by decide)).1 (apart .entryId (by decide)).2 rest
    exact signed entryId ledgerId version payload created plugin
  | entryId =>
    rw [message_mirror,message_mirror] at same
    obtain ⟨rest,plugin⟩ := last_field_inj (apart .subjectPlugin (by decide)).1 (apart .subjectPlugin (by decide)).2 same
    obtain ⟨rest,created⟩ := fixed_last_inj (by simp) rest
    obtain ⟨rest,payload⟩ := last_field_inj (apart .payloadJson (by decide)).1 (apart .payloadJson (by decide)).2 rest
    obtain ⟨rest,version⟩ := fixed_last_inj (by simp) rest
    obtain ⟨entryId,ledgerId⟩ := last_field_inj (apart .ledgerId (by decide)).1 (apart .ledgerId (by decide)).2 rest
    exact signed entryId ledgerId version payload created plugin

-- A row of empty texts, one that names the empty plugin, and one with a NUL in one of its texts.
def blankRow : PersistedLedgerEntry := ⟨"","",0,"",none,"none",0,none,none⟩

def emptyRow : PersistedLedgerEntry := { blankRow with subjectPlugin := some "" }

def nulRow : TextField → PersistedLedgerEntry
  | .entryId => { blankRow with entryId := "\x00" }
  | .ledgerId => { blankRow with ledgerId := "\x00" }
  | .payloadJson => { blankRow with payloadJson := "\x00" }
  | .subjectPlugin => { blankRow with subjectPlugin := some "\x00" }

-- Two of them sign the same bytes: nothing but zeros, and as many.
theorem nul_collides (one two : TextField) : (nulRow one).message = (nulRow two).message := by
  cases one <;> cases two <;> decide

theorem empty_collides : emptyRow.message = blankRow.message := by decide

theorem nulRow_holds (field : TextField) (there : '\x00' ∈ texts.alphabet field) : texts.Holds (nulRow field) := by
  constructor
  · intro other c member
    cases field <;> cases other <;> simp [nulRow,blankRow,PersistedLedgerEntry.text] at member <;> rwa [member]
  · intro empty
    cases field <;> simp [nulRow,blankRow] at empty

theorem nulRow_apart {field other : TextField} (same : SameSigned (nulRow field) (nulRow other)) : field = other := by
  obtain ⟨entryId,ledgerId,_,payload,_,plugin⟩ := same
  cases field <;> cases other <;> first | rfl | simp [nulRow,blankRow] at entryId ledgerId payload plugin

theorem unambiguous_separable (clear : Unambiguous texts) : Separable texts := by
  constructor
  · intro one two first second
    exact nulRow_apart (clear _ _ (nulRow_holds one first) (nulRow_holds two second) (nul_collides one two))
  · intro empty
    have bare : texts.Holds blankRow := by
      refine ⟨fun field c member => absurd member ?_,fun named => by cases named⟩
      cases field <;> simp [blankRow,PersistedLedgerEntry.text]
    have named : texts.Holds emptyRow := by
      refine ⟨fun field c member => absurd member ?_,fun _ => empty⟩
      cases field <;> simp [emptyRow,blankRow,PersistedLedgerEntry.text]
    obtain ⟨_,_,_,_,_,plugin⟩ := clear _ _ named bare empty_collides
    cases plugin

theorem clear_edits (clear : Unambiguous texts) : EditsShow texts := by
  intro crypto ideal row edited holds holds_ kept valid still
  obtain ⟨signed,made⟩ := (ideal.own _ _).mp valid
  obtain ⟨_,made_⟩ := (ideal.own _ _).mp still
  obtain ⟨signature,bytes⟩ := Option.isSome_iff_exists.mp signed
  rw [bytes] at made
  rw [kept,bytes] at made_
  exact clear row edited holds holds_ (ideal.apart _ _ signature made made_)

-- No signature covers the name of its algorithm, nor the pointer to a withdrawal.
theorem algorithm_unseen (crypto : CryptographicServices) (row : PersistedLedgerEntry) (signatureAlgorithm : String)
    (withdrawnByEntryId : Option String) :
    verifyEntry crypto { row with signatureAlgorithm,withdrawnByEntryId } = verifyEntry crypto row := rfl

-- A scheme whose signature is the message.
def echo : CryptographicServices := ⟨some,fun message signature => signature = some message,"echo"⟩

theorem signatures_cover (texts : Texts) : (Unambiguous texts ∧ EditsShow texts) ↔ Separable texts := by
  constructor
  · intro covered
    exact unambiguous_separable covered.1
  · intro separable
    have clear := separable_unambiguous separable
    exact ⟨clear,clear_edits clear⟩

-- An absent plugin made into an empty one; a NUL moved from one text to another.
theorem signatures_uncovered : ¬(∀ one two : PersistedLedgerEntry,one.message = two.message → SameSigned one two) ∧
    (verifyEntry echo { blankRow with signatureBytes := some blankRow.message } = true ∧
      verifyEntry echo { emptyRow with signatureBytes := some blankRow.message } = true) ∧
    (nulRow .entryId).message = (nulRow .ledgerId).message := by
  refine ⟨?_,⟨by decide,by decide⟩,by decide⟩
  intro clear
  obtain ⟨_,_,_,_,_,plugin⟩ := clear _ _ empty_collides
  cases plugin

end EvoCore.Ledger
