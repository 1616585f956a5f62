import EvoCore.Ledger
import EvoCore.Runs

namespace EvoCore.Ledger
open Runs Tables

section
variable {toJson : WithdrawalEntry → String} {ledger after : LedgerPrimitive} {entries later : Entries} {env : Env} {ledgerId : String}
  {schemaVersion : UInt32} {payload subjectPlugin : Option String} {originalEntryId reason : String} {original : PersistedLedgerEntry}

-- The withdrawal entry that an entry names is of its ledger, and names it back.
def Linked (toJson : WithdrawalEntry → String) (entries : Entries) : Prop :=
  ∀ entryId entry withdrawal,get entries entryId = some entry → entry.withdrawnByEntryId = some withdrawal →
    ∃ record,get entries withdrawal = some record ∧ record.ledgerId = entry.ledgerId ∧ record.schemaVersion = withdrawalSchemaV1 ∧
      ∃ reason withdrawnAtMs,record.payloadJson = toJson ⟨entryId,reason,withdrawnAtMs⟩

-- An entry stays as it is, but for a link it did not have.
def Kept (before after : PersistedLedgerEntry) : Prop :=
  { after with withdrawnByEntryId := before.withdrawnByEntryId } = before ∧
    (before.withdrawnByEntryId.isSome → after.withdrawnByEntryId = before.withdrawnByEntryId)

def Preserved (before after : Entries) : Prop :=
  ∀ entryId entry,get before entryId = some entry → ∃ next,get after entryId = some next ∧ Kept entry next

def Untouched (before after : Entries) : Prop := ∀ entryId entry,get before entryId = some entry → get after entryId = some entry

theorem kept_same (entry : PersistedLedgerEntry) : Kept entry entry := ⟨rfl,fun _ => rfl⟩

theorem untouched_preserved (untouched : Untouched entries later) : Preserved entries later :=
  fun entryId entry there => ⟨entry,untouched entryId entry there,kept_same entry⟩

theorem untouched_insert (fresh : get entries entryId = none) : Untouched entries (entries.insert entryId record) := by
  intro other entry there
  rw [get_insert]
  split
  · rename_i same
    subst same
    cases there.symm.trans fresh
  · exact there

def Stores (ledger : LedgerPrimitive) (ledgerId : String) (env : Env) : Prop :=
  isKnownLedgerId ledgerId = true ∧ (get ledger.monotonicFloor ledgerId = none → env.queryFails = none) ∧ env.appendFails = none ∧
    get ledger.entries env.entryId = none

theorem nextMonotonicMs_ok : (∃ minted,nextMonotonicMs ledger ledgerId env = .ok minted) ↔
    (get ledger.monotonicFloor ledgerId = none → env.queryFails = none) := by
  unfold nextMonotonicMs
  cases get ledger.monotonicFloor ledgerId with
  | some last => simp
  | none => cases env.queryFails <;> simp

theorem append_store (result : append ledger ledgerId schemaVersion payload subjectPlugin env = (after,outcome)) :
    (after.entries = ledger.entries ∧ ∃ error,outcome = .error error) ∨
    (outcome = .ok env.entryId ∧ Stores ledger ledgerId env ∧ ∃ body nowMs,payload = some body ∧
      after.entries = ledger.entries.insert env.entryId
        (Draft.record ledger.crypto ⟨env.entryId,ledgerId,schemaVersion,body,subjectPlugin⟩ nowMs)) := by
  unfold append at result
  split at result
  · cases result
    exact .inl ⟨rfl,_,rfl⟩
  · rename_i known
    split at result
    · cases result
      exact .inl ⟨rfl,_,rfl⟩
    · rename_i body
      split at result
      · cases result
        exact .inl ⟨rfl,_,rfl⟩
      · rename_i floor nowMs minted
        have query := nextMonotonicMs_ok.mp ⟨_,minted⟩
        split at result
        · cases result
          exact .inl ⟨rfl,_,rfl⟩
        · rename_i stored
          dsimp only at result
          split at result
          · cases result
            exact .inl ⟨rfl,_,rfl⟩
          · rename_i written
            cases result
            unfold appendLedgerEntry at written
            split at written
            · cases written
            · rename_i fresh
              cases written
              exact .inr ⟨rfl,⟨by simpa using known,query,stored,fresh⟩,body,nowMs,rfl,rfl⟩

theorem append_stores (stores : Stores ledger ledgerId env) :
    (append ledger ledgerId schemaVersion (some body) subjectPlugin env).2 = .ok env.entryId := by
  obtain ⟨known,query,stored,fresh⟩ := stores
  obtain ⟨⟨floor,nowMs⟩,minted⟩ := nextMonotonicMs_ok.mpr query
  simp [append,known,minted,stored,appendLedgerEntry,Draft.record,fresh]

theorem append_untouched (result : append ledger ledgerId schemaVersion payload subjectPlugin env = (after,outcome)) :
    Untouched ledger.entries after.entries := by
  obtain ⟨same,-⟩ | ⟨-,⟨-,-,-,fresh⟩,body,nowMs,-,same⟩ := append_store result
  · rw [same]
    exact fun _ _ there => there
  · rw [same]
    exact untouched_insert fresh

theorem append_linked (linked : Linked toJson ledger.entries)
    (result : append ledger ledgerId schemaVersion payload subjectPlugin env = (after,outcome)) : Linked toJson after.entries := by
  have untouched := append_untouched result
  obtain ⟨same,-⟩ | ⟨-,-,body,nowMs,-,same⟩ := append_store result
  · rw [same]
    exact linked
  · intro entryId entry withdrawal there link
    have before : get ledger.entries entryId = some entry := by
      rw [same,get_insert] at there
      split at there
      · cases there
        cases link
      · exact there
    obtain ⟨record,found,facts⟩ := linked entryId entry withdrawal before link
    exact ⟨record,untouched withdrawal record found,facts⟩

theorem link_store (result : linkLedgerWithdrawal entries originalEntryId withdrawal = .ok later) :
    later = entries ∨ ∃ original,get entries originalEntryId = some original ∧ original.withdrawnByEntryId = none ∧
      later = entries.insert originalEntryId { original with withdrawnByEntryId := some withdrawal } := by
  unfold linkLedgerWithdrawal at result
  split at result
  · cases result
  · split at result
    · cases result
    · rename_i original found
      split at result
      · split at result
        · cases result
          exact .inl rfl
        · cases result
      · rename_i free
        cases result
        exact .inr ⟨original,found,free,rfl⟩

theorem preserved_link (found : get entries originalEntryId = some original) (free : original.withdrawnByEntryId = none) :
    Preserved entries (entries.insert originalEntryId { original with withdrawnByEntryId := some withdrawal }) := by
  intro entryId entry there
  rw [get_insert]
  split
  · rename_i same
    subst same
    cases there.symm.trans found
    refine ⟨_,rfl,rfl,?_⟩
    intro present
    rw [free] at present
    cases present
  · exact ⟨entry,there,kept_same entry⟩

theorem preserved_trans (first : Preserved entries middle) (second : Preserved middle later) : Preserved entries later := by
  intro entryId entry there
  obtain ⟨next,found,same,stays⟩ := first entryId entry there
  obtain ⟨last,final,again,remains⟩ := second entryId next found
  refine ⟨last,final,?_,?_⟩
  · rw [← same,← again]
  · intro present
    have link := stays present
    rw [← link] at present ⊢
    exact remains present

theorem withdraw_cases (result : withdraw toJson ledger ledgerId originalEntryId reason subjectPlugin env = (after,outcome)) :
    (Untouched ledger.entries after.entries ∧ (Linked toJson ledger.entries → Linked toJson after.entries)) ∨
    (outcome = .ok env.entryId ∧ Stores ledger ledgerId env ∧ env.linkFails = none ∧
      ∃ (middle : LedgerPrimitive) (nowMs : UInt64) (original : PersistedLedgerEntry),
        (Linked toJson ledger.entries → Linked toJson middle.entries) ∧
        middle.entries = ledger.entries.insert env.entryId (Draft.record ledger.crypto ⟨env.entryId,ledgerId,withdrawalSchemaV1,
          toJson ⟨originalEntryId,reason,env.withdrawnAtMs⟩,subjectPlugin⟩ nowMs) ∧
        get middle.entries originalEntryId = some original ∧ original.withdrawnByEntryId = none ∧
        after.entries = middle.entries.insert originalEntryId { original with withdrawnByEntryId := some env.entryId }) := by
  unfold withdraw at result
  split at result
  · cases result
    exact .inl ⟨fun _ _ there => there,id⟩
  · split at result
    · rename_i appended
      cases result
      exact .inl ⟨append_untouched appended,fun linked => append_linked linked appended⟩
    · rename_i middle withdrawal appended
      have calm : Untouched ledger.entries middle.entries ∧ (Linked toJson ledger.entries → Linked toJson middle.entries) :=
        ⟨append_untouched appended,fun linked => append_linked linked appended⟩
      obtain ⟨-,error,failed⟩ | ⟨minted,stores,body,nowMs,written,entries⟩ := append_store appended
      · cases failed
      · cases minted
        cases written
        split at result
        · cases result
          exact .inl calm
        · rename_i links
          split at result
          · cases result
            exact .inl calm
          · rename_i later linked
            cases result
            obtain rfl | ⟨original,found,free,rfl⟩ := link_store linked
            · exact .inl calm
            · exact .inr ⟨rfl,stores,links,middle,nowMs,original,calm.2,entries,found,free,rfl⟩

-- A withdrawal that is stored and linked names an entry of its own ledger, unless it names
-- one that is missing or withdrawn already.
def Within (ledger : LedgerPrimitive) (env : Env) : Call → Prop
  | .withdraw ledgerId originalEntryId _ _ =>
    Stores ledger ledgerId env → env.linkFails = none → ∀ original,
      get ledger.entries originalEntryId = some original → original.withdrawnByEntryId = none → original.ledgerId = ledgerId
  | _ => True

theorem linked_insert (linked : Linked toJson entries) (found : get entries originalEntryId = some original)
    (record : get entries withdrawal = some written) (ledger : written.ledgerId = original.ledgerId)
    (schema : written.schemaVersion = withdrawalSchemaV1)
    (names : written.payloadJson = toJson ⟨originalEntryId,reason,withdrawnAtMs⟩) :
    Linked toJson (entries.insert originalEntryId { original with withdrawnByEntryId := some withdrawal }) := by
  -- The link changes neither the ledger, the schema nor the payload of the row it is in.
  have carried : ∀ entryId entry,get entries entryId = some entry →
      ∃ next,get (entries.insert originalEntryId { original with withdrawnByEntryId := some withdrawal }) entryId = some next ∧
        next.ledgerId = entry.ledgerId ∧ next.schemaVersion = entry.schemaVersion ∧ next.payloadJson = entry.payloadJson := by
    intro entryId entry there
    rw [get_insert]
    split
    · rename_i same
      subst same
      cases there.symm.trans found
      exact ⟨_,rfl,rfl,rfl,rfl⟩
    · exact ⟨entry,there,rfl,rfl,rfl⟩
  intro entryId entry target there link
  rw [get_insert] at there
  split at there
  · rename_i same
    subst same
    cases there
    cases link
    obtain ⟨next,final,sameLedger,sameSchema,sameBody⟩ := carried withdrawal written record
    exact ⟨next,final,sameLedger.trans ledger,sameSchema.trans schema,reason,withdrawnAtMs,sameBody.trans names⟩
  · obtain ⟨old,before,inLedger,hasSchema,why,at_,names⟩ := linked entryId entry target there link
    obtain ⟨next,final,sameLedger,sameSchema,sameBody⟩ := carried target old before
    exact ⟨next,final,sameLedger.trans inLedger,sameSchema.trans hasSchema,why,at_,sameBody.trans names⟩

theorem withdraw_links (stores : Stores ledger ledgerId env) (links : env.linkFails = none)
    (found : get ledger.entries originalEntryId = some original) (free : original.withdrawnByEntryId = none)
    (result : withdraw toJson ledger ledgerId originalEntryId reason subjectPlugin env = (after,outcome)) :
    get after.entries originalEntryId = some { original with withdrawnByEntryId := some env.entryId } := by
  have answered : (append ledger ledgerId withdrawalSchemaV1 (some (toJson ⟨originalEntryId,reason,env.withdrawnAtMs⟩))
      subjectPlugin env).2 = .ok env.entryId := append_stores stores
  cases appended : append ledger ledgerId withdrawalSchemaV1 (some (toJson ⟨originalEntryId,reason,env.withdrawnAtMs⟩))
      subjectPlugin env with
  | mk middle answer =>
    rw [appended] at answered
    cases answered
    have still := append_untouched appended originalEntryId original found
    obtain ⟨-,error,failed⟩ | ⟨-,-,body,nowMs,-,entries⟩ := append_store appended
    · cases failed
    · have added : get middle.entries env.entryId = some (Draft.record ledger.crypto
          ⟨env.entryId,ledgerId,withdrawalSchemaV1,body,subjectPlugin⟩ nowMs) := by
        rw [entries,get_insert,if_pos rfl]
      simp only [withdraw,stores.1,Bool.not_true,Bool.false_eq_true,if_false,appended,links,linkLedgerWithdrawal,added,still,free] at result
      cases result
      rw [get_insert,if_pos rfl]

theorem withdraw_linked (linked : Linked toJson ledger.entries)
    (result : withdraw toJson ledger ledgerId originalEntryId reason subjectPlugin env = (after,outcome)) :
    Linked toJson after.entries ↔ Within ledger env (.withdraw ledgerId originalEntryId reason subjectPlugin) := by
  obtain ⟨untouched,keeps⟩ | ⟨-,stores,links,middle,nowMs,original,keeps,entries,found,free,same⟩ := withdraw_cases result
  · refine iff_of_true (keeps linked) ?_
    intro stores links original found free
    have still := untouched originalEntryId original found
    have changed := Option.some.inj (still.symm.trans (withdraw_links stores links found free result))
    rw [changed] at free
    cases free
  · have added : get middle.entries env.entryId = some (Draft.record ledger.crypto ⟨env.entryId,ledgerId,withdrawalSchemaV1,
        toJson ⟨originalEntryId,reason,env.withdrawnAtMs⟩,subjectPlugin⟩ nowMs) := by
      rw [entries,get_insert,if_pos rfl]
    constructor
    · intro after_ _ _ own ownFound _
      have apart : originalEntryId ≠ env.entryId := by
        rintro rfl
        cases stores.2.2.2.symm.trans ownFound
      have mine : get middle.entries originalEntryId = some own := by
        rw [entries,get_insert,if_neg apart]
        exact ownFound
      cases mine.symm.trans found
      obtain ⟨record,there,ledgers,-⟩ := after_ originalEntryId { original with withdrawnByEntryId := some env.entryId } env.entryId
        (by rw [same,get_insert,if_pos rfl]) rfl
      rw [same,get_insert,if_neg apart.symm,added] at there
      cases there
      exact ledgers.symm
    · intro within
      rw [same]
      refine linked_insert (keeps linked) found added ?_ rfl rfl
      by_cases own : originalEntryId = env.entryId
      · rw [own] at found
        cases added.symm.trans found
        rfl
      · rw [entries,get_insert,if_neg own] at found
        exact (within stores links original found free).symm

-- Fields and links already written stay, and a failed call changes no row.
structure Careful (toJson : WithdrawalEntry → String) (ledger : LedgerPrimitive) (env : Env) (request : Call) : Prop where
  preserved : Preserved ledger.entries (call toJson ledger env request).1.entries
  failed : ∀ error,(call toJson ledger env request).2 = .error error → Untouched ledger.entries (call toJson ledger env request).1.entries

theorem careful (toJson : WithdrawalEntry → String) (ledger : LedgerPrimitive) (env : Env) (request : Call) :
    Careful toJson ledger env request := by
  have plain (untouched : Untouched ledger.entries (call toJson ledger env request).1.entries) : Careful toJson ledger env request :=
    ⟨untouched_preserved untouched,fun _ _ => untouched⟩
  cases request with
  | appendConsent | appendTrust | appendAction | appendLifecycle => exact plain (append_untouched Prod.mk.eta.symm)
  | withdraw ledgerId originalEntryId reason subjectPlugin =>
    have result : withdraw toJson ledger ledgerId originalEntryId reason subjectPlugin env =
      ((call toJson ledger env (.withdraw ledgerId originalEntryId reason subjectPlugin)).1,
        (call toJson ledger env (.withdraw ledgerId originalEntryId reason subjectPlugin)).2) := rfl
    obtain ⟨untouched,-⟩ | ⟨fine,stores,-,middle,nowMs,original,-,entries,found,free,same⟩ := withdraw_cases result
    · exact plain untouched
    · constructor
      · rw [same]
        refine preserved_trans (untouched_preserved ?_) (preserved_link found free)
        rw [entries]
        exact untouched_insert stores.2.2.2
      · intro error failed
        cases fine.symm.trans failed

theorem call_linked (linked : Linked toJson ledger.entries) :
    Linked toJson (call toJson ledger env request).1.entries ↔ Within ledger env request := by
  cases request with
  | appendConsent | appendTrust | appendAction | appendLifecycle => exact iff_of_true (append_linked linked Prod.mk.eta.symm) trivial
  | withdraw => exact withdraw_linked linked Prod.mk.eta.symm

def step (toJson : WithdrawalEntry → String) (ledger : LedgerPrimitive) (action : Env × Call) : LedgerPrimitive :=
  (call toJson ledger action.1 action.2).1

theorem withdrawals_linked (toJson : WithdrawalEntry → String) (backend : Backend) (crypto : CryptographicServices)
    (actions : List (Env × Call)) :
    (Throughout (step toJson) (fun ledger => Linked toJson ledger.entries) (new backend crypto) actions ∧
      Guarded (step toJson) (fun ledger action => Careful toJson ledger action.1 action.2) (new backend crypto) actions) ↔
    Guarded (step toJson) (fun ledger action => Within ledger action.1 action.2) (new backend crypto) actions := by
  have all : Guarded (step toJson) (fun ledger action => Careful toJson ledger action.1 action.2) (new backend crypto) actions :=
    guarded_prefixes fun _ _ _ _ => careful toJson _ _ _
  have empty : Linked toJson (new backend crypto).entries := by
    intro entryId entry withdrawal there
    simp [new] at there
  rw [and_iff_left all]
  exact throughout_exact (fun _ _ linked => call_linked linked) empty

end

def written (entry : WithdrawalEntry) : String :=
  s!"\x7b\"original_entry_id\":\"{entry.originalEntryId}\",\"reason\":\"{entry.reason}\",\"withdrawn_at_ms\":{entry.withdrawnAtMs}\x7d"

def minting (entryId : String) : Env := ⟨entryId,1,1,none,none,none⟩

-- A consent decision withdrawn through the trust ledger.
def crossed : List (Env × Call) :=
  [(minting "a",.appendConsent (some "\x7b\x7d") none),(minting "b",.withdraw ledgerTrust "a" "mistaken" none)]

theorem crossed_unlinked :
    ¬Throughout (step written) (fun ledger => Linked written ledger.entries) (new .memory noOpCryptographicServices) crossed := by
  intro held
  obtain ⟨record,there,ledgers,-⟩ := throughout_final held "a"
    ⟨"a",ledgerConsent,1,"\x7b\x7d",none,"none",1,none,some "b"⟩ "b" (by decide) rfl
  have other : get (run (step written) (new .memory noOpCryptographicServices) crossed).entries "b" =
      some ⟨"b",ledgerTrust,1,written ⟨"a","mistaken",1⟩,none,"none",1,none,none⟩ := by decide
  cases other.symm.trans there
  exact absurd ledgers (by decide)

end EvoCore.Ledger
