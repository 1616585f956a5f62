import EvoCore.CoalescedBuckets

namespace EvoCore.PayloadLabels
open Tables Runs Coalescer CoalescedBuckets

-- A JSON value as the extractor sees it: a string, or anything else by its text.
inductive Value where
  | string (text : String)
  | other (rendered : String)
deriving DecidableEq,Repr

def Value.str : Value → String
  | .string text => text
  | .other rendered => rendered

inductive Payload where
  | object (map : Table String Value)
  | other

inductive Field where
  | skip (name : String)
  | flatten (name : String) (payload : Payload)
  | plain (name text : String)

-- The code that the derive generates for a variant, field by field.
def extractPayload (out : Table String String) : Payload → Table String String
  | .object map => map.entries.foldl (fun out entry => out.insert entry.1 entry.2.str) out
  | .other => out

def extractField (out : Table String String) : Field → Table String String
  | .skip _ => out
  | .flatten _ payload => extractPayload out payload
  | .plain name text => out.insert name text

def variantKindStr (ident : String) : String :=
  String.ofList (ident.toList.zipIdx.flatMap fun ch => if ch.1.isUpper ∧ 0 < ch.2 then ['_',ch.1.toLower] else [ch.1.toLower])

def variantLabelExtractor (kindStr : String) (fields : List Field) : Table String String :=
  fields.foldl extractField ((∅ : Table String String).insert "variant" kindStr)

-- The static labels with the fields' own values.
def Field.static : Field → Option (String × String)
  | .plain name text => some (name,text)
  | .skip _ => none
  | .flatten _ _ => none

def ownLabels (kindStr : String) (fields : List Field) : List (String × String) := ("variant",kindStr)::fields.filterMap Field.static

-- A variant other than PluginEvent: the fields with their texts, none for one that is skipped.
structure Enumerated where
  ident : String
  fields : List (String × Option String)
  distinct : (fields.map Prod.fst).Nodup
  free : "variant" ∉ fields.map Prod.fst

def fieldOf (field : String × Option String) : Field :=
  match field.2 with
  | some text => .plain field.1 text
  | none => .skip field.1

inductive Happening where
  | pluginEvent (plugin eventType : String) (payload : Payload)
  | enumerated (variant : Enumerated)

def Happening.ident : Happening → String
  | .pluginEvent _ _ _ => "PluginEvent"
  | .enumerated variant => variant.ident

def Happening.fields : Happening → List Field
  | .pluginEvent plugin eventType payload => [.plain "plugin" plugin,.plain "event_type" eventType,.flatten "payload" payload,.skip "at"]
  | .enumerated variant => variant.fields.map fieldOf

def Happening.kind (h : Happening) : String := variantKindStr h.ident

def Happening.own (h : Happening) : List (String × String) := ownLabels h.kind h.fields

def Happening.plugin (h : Happening) : Option String := h.own.lookup "plugin"

def Happening.labels (h : Happening) (label : String) : Option String := get (variantLabelExtractor h.kind h.fields) label

def Happening.payload : Happening → Payload
  | .pluginEvent _ _ payload => payload
  | .enumerated _ => .other

def Truthful (h : Happening) : Prop := ∀ label text,(label,text) ∈ h.own → h.labels label = some text

-- A key of the payload that is a static label spells that label's own value.
def Spells (own : List (String × String)) : Payload → Prop
  | .object map => ∀ label text,(label,text) ∈ own → ∀ value,get map label = some value → value.str = text
  | .other => True

def Alike (requested : List String) (a b : HappeningEnvelope Happening) : Prop :=
  ("variant" ∈ requested → a.happening.kind = b.happening.kind) ∧ ("plugin" ∈ requested → a.happening.plugin = b.happening.plugin)

structure Unimpersonated (config : CoalesceConfig) (stream : List (HappeningEnvelope Happening)) : Prop where
  truthful : ∀ env ∈ stream,Truthful env.happening
  apart : ∀ (calls : List (Call Happening)) (order : KeyOrder),observedIn calls = stream →
    ∀ group ∈ (run (CoalescedBuckets.Ledger.step Happening.labels) (.new config) (calls ++ [Call.drain order])).standsFor,
      ∀ a ∈ group,∀ b ∈ group,Alike config.labels a b

structure Separable (requested : List String) (stream : List (HappeningEnvelope Happening)) : Prop where
  spells : ∀ env ∈ stream,Spells env.happening.own env.happening.payload
  texts : ∀ a ∈ stream,∀ b ∈ stream,∀ key,buildKey a.happening.labels requested = some key →
    buildKey b.happening.labels requested = some key → Alike requested a b

theorem get_entries (entries : List (Sigma fun _ : String => Value)) (apart : entries.NodupKeys) (out : Table String String) :
    get (entries.foldl (fun out entry => out.insert entry.1 entry.2.str) out) key =
      ((entries.dlookup key).map Value.str).or (get out key) := by
  induction entries generalizing out with
  | nil => simp
  | cons first rest ih =>
    rw [List.nodupKeys_cons] at apart
    rw [List.foldl_cons,ih apart.2,get_insert]
    by_cases same : key = first.1
    · subst same
      have gone : rest.dlookup first.1 = none := List.dlookup_eq_none.mpr apart.1
      rw [gone,if_pos rfl,List.dlookup_cons_eq]
      rfl
    · rw [if_neg same,List.dlookup_cons_ne _ _ same]

theorem get_extractPayload (map : Table String Value) (out : Table String String) :
    get (extractPayload out (.object map)) key = ((get map key).map Value.str).or (get out key) :=
  get_entries map.entries map.nodupKeys out

theorem enumerated_fields (variant : Enumerated) (out : Table String String) :
    (variant.fields.map fieldOf).foldl extractField out =
      variant.fields.foldl (fun out field => extractField out (fieldOf field)) out := List.foldl_map

theorem enumerated_loads : Loads (get (κ := String) (ν := String)) (fun out field => extractField out (fieldOf field)) Prod.fst Prod.snd := by
  intro out field key
  cases shape : field.2 with
  | none => simp [fieldOf,shape,extractField]
  | some text => simp [fieldOf,shape,extractField]

theorem mem_enumerated {variant : Enumerated} : (label,text) ∈ (variant.fields.map fieldOf).filterMap Field.static ↔ (label,some text) ∈ variant.fields := by
  rw [List.filterMap_map,List.mem_filterMap]
  constructor
  · rintro ⟨⟨name,value⟩,member,made⟩
    cases value with
    | none => cases made
    | some own =>
      cases made
      exact member
  · intro member
    exact ⟨(label,some text),member,rfl⟩

theorem enumerated_truthful (variant : Enumerated) : Truthful (.enumerated variant) := by
  intro label text own
  change get ((variant.fields.map fieldOf).foldl extractField _) label = some text
  rw [enumerated_fields]
  rcases List.mem_cons.mp own with same | member
  · cases same
    rw [load_absent enumerated_loads variant.free,get_insert,if_pos rfl]
  · have listed := mem_enumerated.mp member
    have other : label ≠ "variant" := by
      rintro rfl
      exact variant.free (List.mem_map_of_mem listed)
    exact load_present enumerated_loads variant.distinct listed (by rw [get_insert,if_neg other,get_empty])

theorem pluginEvent_own (plugin eventType : String) (payload : Payload) : (Happening.pluginEvent plugin eventType payload).own =
    [("variant",variantKindStr "PluginEvent"),("plugin",plugin),("event_type",eventType)] := rfl

theorem pluginEvent_labels (plugin eventType : String) (payload : Payload) (label : String) :
    (Happening.pluginEvent plugin eventType payload).labels label =
      get (extractPayload ((((∅ : Table String String).insert "variant" (variantKindStr "PluginEvent")).insert "plugin" plugin).insert
        "event_type" eventType) payload) label := rfl

-- The three static labels of a plugin event are apart, so that each is read back before the payload.
theorem static_read (own : (label,text) ∈ (Happening.pluginEvent plugin eventType payload).own) :
    get ((((∅ : Table String String).insert "variant" (variantKindStr "PluginEvent")).insert "plugin" plugin).insert
      "event_type" eventType) label = some text := by
  rw [pluginEvent_own] at own
  simp only [List.mem_cons,Prod.mk.injEq,List.not_mem_nil,or_false] at own
  simp only [get_insert]
  rcases own with ⟨rfl,rfl⟩ | ⟨rfl,rfl⟩ | ⟨rfl,rfl⟩ <;> simp only [String.reduceEq,if_true,if_false]

theorem truthful_exact (h : Happening) : Truthful h ↔ Spells h.own h.payload := by
  cases h with
  | enumerated variant => exact iff_of_true (enumerated_truthful variant) trivial
  | pluginEvent plugin eventType payload =>
    cases payload with
    | other => exact iff_of_true (fun label text own => static_read own) trivial
    | object map =>
      unfold Truthful
      simp only [pluginEvent_labels,get_extractPayload]
      constructor
      · intro truthful label text own value found
        have read := truthful label text own
        rw [found] at read
        exact Option.some.inj read
      · intro spells label text own
        rw [static_read own]
        cases found : get map label with
        | none => rfl
        | some value => exact congrArg some (spells label text own value found)

theorem impersonation_exact (config : CoalesceConfig) (stream : List (HappeningEnvelope Happening)) :
    Unimpersonated config stream ↔ Separable config.labels stream := by
  constructor
  · intro held
    exact ⟨fun env member => (truthful_exact env.happening).mp (held.truthful env member),grouped_exact.mp held.apart⟩
  · intro separable
    exact ⟨fun env member => (truthful_exact env.happening).mpr (separable.spells env member),grouped_exact.mpr separable.texts⟩

-- A sensor's payload with a variant of its own, next to a custody happening.
def custody : Happening := .enumerated ⟨"CustodyTaken",[("plugin",some "org.example.mpd"),("handle_id",some "h1"),("at",none)],by decide,by decide⟩
def impostor : Happening :=
  .pluginEvent "org.example.sensor" "reading" (.object ((∅ : Table String Value).insert "variant" (.string "custody_taken")))

def perVariant : CoalesceConfig := ⟨["variant"],100,.latest⟩

theorem impostor_absorbs : ¬Unimpersonated perVariant [⟨1,custody⟩,⟨2,impostor⟩] ∧ ¬Truthful impostor ∧
    (run (CoalescedBuckets.Ledger.step Happening.labels) (.new perVariant) (allAtOnce [⟨1,custody⟩,⟨2,impostor⟩] ++ [Call.drain .listed])).emitted =
    [⟨2,impostor⟩] := by
  have read : impostor.labels "variant" = some "custody_taken" := by decide
  have untruthful : ¬Truthful impostor := by
    intro truthful
    have spelled := truthful "variant" (variantKindStr "PluginEvent") List.mem_cons_self
    rw [read] at spelled
    revert spelled
    decide
  refine ⟨?_,untruthful,rfl⟩
  intro held
  exact untruthful (held.truthful ⟨2,impostor⟩ (by simp))

end EvoCore.PayloadLabels
