import AgentPlatform.ExecutionStore
import AgentPlatform.JsonCanonical

/-!
# Envelopes on the wire

The embedding of `ExecutionEnvelope` of `execution_bus.py` with its dictionary form, of what
`KafkaExecutionBus.publish` sends and of what `KafkaExecutionConsumer` makes of it. The
dictionary is written with sorted keys, so a reader finds its fields in another order:
`Json.Same` is the equality of Python's dictionaries. What `json.loads` makes of a text is a
parameter, and so is the text that `str` makes of a value that is no string.
-/

namespace Json

/-! ## Documents that are equal -/

/-- **Equal documents**: they differ in the order of keys at most. -/
def Same (j j' : Json) : Prop := j.canon = j'.canon

theorem Same.refl (j : Json) : j.Same j := rfl

theorem Same.trans {a b c : Json} (h : a.Same b) (h' : b.Same c) : a.Same c := Eq.trans h h'

theorem lookup_field (k : String) (f : String × Json) (fs : List (String × Json)) :
    (f :: fs).lookup k = if k = f.1 then some f.2 else fs.lookup k := by
  obtain ⟨name, value⟩ := f
  rw [List.lookup_cons]
  split_ifs with hk
  · rw [beq_iff_eq.mpr hk]
  · rw [beq_eq_false_iff_ne.mpr hk]

/-- Inserting a field in its place does not hide another. -/
theorem lookup_orderedInsert (k : String) (f : String × Json) (fs : List (String × Json)) :
    (fs.orderedInsert (fun a b => a.1 ≤ b.1) f).lookup k
      = if k = f.1 then some f.2 else fs.lookup k := by
  induction fs with
  | nil => exact lookup_field k f []
  | cons g fs ih =>
    rw [List.orderedInsert]
    split_ifs with hle hk hk
    · rw [lookup_field, if_pos hk]
    · rw [lookup_field, if_neg hk]
    · -- `g` comes before `f`, so it has another key.
      have hne : k ≠ g.1 := fun h => hle (hk ▸ h ▸ String.le_refl _)
      rw [lookup_field, if_neg hne, ih, if_pos hk]
    · rw [lookup_field, lookup_field, ih, if_neg hk]

/-- Sorting the keys changes no entry. -/
theorem lookup_insertionSort (k : String) (fs : List (String × Json)) :
    (fs.insertionSort (fun a b => a.1 ≤ b.1)).lookup k = fs.lookup k := by
  induction fs with
  | nil => rfl
  | cons f fs ih => rw [List.insertionSort_cons, lookup_orderedInsert, ih, lookup_field]

theorem lookup_canonFields (k : String) (fs : List (String × Json)) :
    (canonFields fs).lookup k = (fs.lookup k).map canon := by
  induction fs with
  | nil => rfl
  | cons f fs ih =>
    obtain ⟨name, value⟩ := f
    rw [canonFields, lookup_field, lookup_field, ih, apply_ite (Option.map canon)]
    rfl

/-- **Equal objects have equal entries.** -/
theorem Same.lookup {fs gs : List (String × Json)} (h : (Json.obj fs).Same (.obj gs)) (k : String) :
    (fs.lookup k).map canon = (gs.lookup k).map canon := by
  unfold Same at h
  rw [canon, canon, Json.obj.injEq] at h
  rw [← lookup_canonFields, ← lookup_insertionSort, h, lookup_insertionSort, lookup_canonFields]

/-- What is equal to an object is an object. -/
theorem Same.obj {fs : List (String × Json)} {j : Json} (h : (Json.obj fs).Same j) :
    ∃ gs, j = .obj gs := by
  unfold Same at h
  cases j with
  | obj gs => exact ⟨gs, rfl⟩
  | _ => simp [canon] at h

/-- What is equal to a string is that string. -/
theorem eq_str_of_canon {s : String} {j : Json} (h : (Json.str s).canon = j.canon) :
    j = .str s := by
  cases j with
  | str s' => rw [canon, canon] at h; exact h.symm
  | _ => simp [canon] at h

theorem Same.lookup_str {fs gs : List (String × Json)} (h : (Json.obj fs).Same (.obj gs))
    {k s : String} (hk : fs.lookup k = some (.str s)) : gs.lookup k = some (.str s) := by
  have hmap := h.lookup k
  rw [hk] at hmap
  obtain ⟨j, hj, hcanon⟩ := Option.map_eq_some_iff.mp hmap.symm
  rw [hj, eq_str_of_canon hcanon.symm]

theorem Same.lookup_none {fs gs : List (String × Json)} (h : (Json.obj fs).Same (.obj gs))
    {k : String} (hk : fs.lookup k = none) : gs.lookup k = none := by
  have hmap := h.lookup k
  rw [hk] at hmap
  exact Option.map_eq_none_iff.mp hmap.symm

theorem Same.lookup_obj {fs gs data : List (String × Json)} (h : (Json.obj fs).Same (.obj gs))
    {k : String} (hk : fs.lookup k = some (.obj data)) :
    ∃ data', gs.lookup k = some (.obj data') ∧ (Json.obj data).Same (.obj data') := by
  have hmap := h.lookup k
  rw [hk] at hmap
  obtain ⟨j, hj, hcanon⟩ := Option.map_eq_some_iff.mp hmap.symm
  have hsame : (Json.obj data).Same j := hcanon.symm
  obtain ⟨data', rfl⟩ := hsame.obj
  exact ⟨data', hj, hsame⟩

/-- `str` of a value, where `repr` gives the text of what is no string. -/
def pyStr (repr : Json → String) : Json → String
  | .str s => s
  | j => repr j

end Json

namespace ExecutionBus

/-! ## Envelopes and dictionaries -/

/-- **`ExecutionEnvelope`.** -/
structure ExecutionEnvelope where
  messageId : String
  source : String
  eventType : String
  partitionKey : String
  time : String
  tenantId : String
  dataSchema : String
  data : List (String × Json)
  causationId : Option String := none
  correlationId : Option String := none
  dataClassification : Option String := none
  traceParent : Option String := none

/-- `ENVELOPE_SPECVERSION`. -/
def envelopeSpecversion : String := "1.0"

/-- `_REQUIRED_ENVELOPE_FIELDS`. -/
def requiredEnvelopeFields : List String :=
  ["id", "source", "type", "time", "partitionkey", "tenantid", "dataschema", "data"]

/-- An entry that is left out when there is nothing to say. -/
def optionalEntry (name : String) : Option String → List (String × Json)
  | none => []
  | some s => [(name, .str s)]

/-- **`to_dict`.** -/
def ExecutionEnvelope.toDict (e : ExecutionEnvelope) : List (String × Json) :=
  [("specversion", .str envelopeSpecversion), ("id", .str e.messageId), ("source", .str e.source),
    ("type", .str e.eventType), ("time", .str e.time), ("partitionkey", .str e.partitionKey),
    ("tenantid", .str e.tenantId), ("dataschema", .str e.dataSchema),
    ("datacontenttype", .str "application/json"), ("data", .obj e.data)]
  ++ optionalEntry "causationid" e.causationId
  ++ optionalEntry "correlationid" e.correlationId
  ++ optionalEntry "dataclassification" e.dataClassification
  ++ optionalEntry "traceparent" e.traceParent

/-- `_optional_str`. -/
def optionalStr (repr : Json → String) (payload : List (String × Json)) (field : String) :
    Option String :=
  match payload.lookup field with
  | none | some .null => none
  | some value => some (value.pyStr repr)

/-- `str(payload[field])` of a field that is there. -/
def requiredStr (repr : Json → String) (payload : List (String × Json)) (field : String) : String :=
  ((payload.lookup field).map (Json.pyStr repr)).getD ""

/-- The required fields that a dictionary lacks. -/
def missingFields (payload : List (String × Json)) : List String :=
  requiredEnvelopeFields.filter (fun field => (payload.lookup field).isNone)

/-- The `specversion` of a dictionary is the one that is read. -/
def readsSpecversion (payload : List (String × Json)) : Bool :=
  match payload.lookup "specversion" with
  | some (.str s) => s = envelopeSpecversion
  | _ => false

/-- **`from_dict`.** -/
def fromDict (repr : Json → String) (payload : List (String × Json)) :
    Except PyException ExecutionEnvelope :=
  if ¬ readsSpecversion payload then .error (.value "envelope specversion must be 1.0")
  else if missingFields payload ≠ [] then
    .error (.value ("envelope is missing required fields: "
      ++ ", ".intercalate (missingFields payload)))
  else
    match payload.lookup "data" with
    | some (.obj data) =>
      .ok
        { messageId := requiredStr repr payload "id"
          source := requiredStr repr payload "source"
          eventType := requiredStr repr payload "type"
          partitionKey := requiredStr repr payload "partitionkey"
          time := requiredStr repr payload "time"
          tenantId := requiredStr repr payload "tenantid"
          dataSchema := requiredStr repr payload "dataschema"
          data := data
          causationId := optionalStr repr payload "causationid"
          correlationId := optionalStr repr payload "correlationid"
          dataClassification := optionalStr repr payload "dataclassification"
          traceParent := optionalStr repr payload "traceparent" }
    | _ => .error (.value "envelope data must be a JSON object")

/-! ## Records of a topic -/

/-- What is sent to Kafka. -/
structure KafkaRecord where
  topic : String
  value : ByteArray
  key : ByteArray

/-- **`publish`**, with the topics of a bus. -/
def publish (eventTopics : List (String × String)) (e : ExecutionEnvelope) : KafkaRecord where
  topic := (eventTopics.lookup e.eventType).getD e.eventType
  value := (Json.obj e.toDict).dumps.toUTF8
  key := e.partitionKey.toUTF8

/-- **`_decode`.** -/
def decode (loads : ByteArray → Except PyException Json) (repr : Json → String) :
    Option ByteArray → Except PyException ExecutionEnvelope
  | none => .error (.value "execution bus record value must not be null")
  | some value => do
    match ← loads value with
    | .obj payload => fromDict repr payload
    | _ => .error (.value "execution bus record must be a JSON object")

/-- **A text is read back**: `json.loads` of what `json.dumps` wrote is equal to it. -/
def ReadsBack (loads : ByteArray → Except PyException Json) (j : Json) : Prop :=
  ∃ j', loads j.dumps.toUTF8 = .ok j' ∧ j.Same j'

/-- **Equal envelopes.** -/
structure ExecutionEnvelope.Same (e e' : ExecutionEnvelope) : Prop where
  messageId : e'.messageId = e.messageId
  source : e'.source = e.source
  eventType : e'.eventType = e.eventType
  partitionKey : e'.partitionKey = e.partitionKey
  time : e'.time = e.time
  tenantId : e'.tenantId = e.tenantId
  dataSchema : e'.dataSchema = e.dataSchema
  data : (Json.obj e.data).Same (.obj e'.data)
  causationId : e'.causationId = e.causationId
  correlationId : e'.correlationId = e.correlationId
  dataClassification : e'.dataClassification = e.dataClassification
  traceParent : e'.traceParent = e.traceParent

/-! ## Round trips -/

section RoundTrip

variable {loads : ByteArray → Except PyException Json} {repr : Json → String}
  {e : ExecutionEnvelope} {payload : List (String × Json)}

theorem lookup_optionalEntry (name k : String) (o : Option String) :
    (optionalEntry name o).lookup k = if k = name then o.map .str else none := by
  cases o with
  | none => simp [optionalEntry]
  | some s => exact Json.lookup_field k (name, .str s) []

theorem requiredStr_of_lookup {field s : String} (h : payload.lookup field = some (.str s)) :
    requiredStr repr payload field = s := by
  unfold requiredStr
  rw [h]
  rfl

/-- An optional field is read back, whether it was written or left out. -/
theorem optionalStr_of_same {fs : List (String × Json)} (h : (Json.obj fs).Same (.obj payload))
    {field : String} {o : Option String} (hfield : fs.lookup field = o.map .str) :
    optionalStr repr payload field = o := by
  unfold optionalStr
  cases o with
  | none => rw [h.lookup_none hfield]
  | some s => rw [h.lookup_str hfield]; rfl

/-- **`from_dict` undoes `to_dict`**, in whatever order the keys come back. -/
theorem fromDict_toDict (repr : Json → String) (h : (Json.obj e.toDict).Same (.obj payload)) :
    ∃ e', fromDict repr payload = .ok e' ∧ e.Same e' := by
  have hstr : ∀ {k s}, e.toDict.lookup k = some (.str s) → payload.lookup k = some (.str s) :=
    fun hk => h.lookup_str hk
  have hspec : payload.lookup "specversion" = some (.str envelopeSpecversion) := hstr rfl
  have hid : payload.lookup "id" = some (.str e.messageId) := hstr rfl
  have hsource : payload.lookup "source" = some (.str e.source) := hstr rfl
  have htype : payload.lookup "type" = some (.str e.eventType) := hstr rfl
  have htime : payload.lookup "time" = some (.str e.time) := hstr rfl
  have hkey : payload.lookup "partitionkey" = some (.str e.partitionKey) := hstr rfl
  have htenant : payload.lookup "tenantid" = some (.str e.tenantId) := hstr rfl
  have hschema : payload.lookup "dataschema" = some (.str e.dataSchema) := hstr rfl
  have hwritten : e.toDict.lookup "data" = some (.obj e.data) := rfl
  obtain ⟨data, hdata, hsame⟩ := h.lookup_obj hwritten
  have hmissing : missingFields payload = [] := by
    simp [missingFields, requiredEnvelopeFields, hid, hsource, htype, htime, hkey, htenant,
      hschema, hdata]
  have hreads : readsSpecversion payload = true := by
    unfold readsSpecversion
    rw [hspec]
    decide
  unfold fromDict
  rw [if_neg (not_not.mpr hreads), if_neg (not_not.mpr hmissing), hdata]
  have hoptional : ∀ {k o}, e.toDict.lookup k = Option.map Json.str o →
      optionalStr repr payload k = o := fun hk => optionalStr_of_same h hk
  refine ⟨_, rfl, ?_⟩
  constructor
  · exact requiredStr_of_lookup hid
  · exact requiredStr_of_lookup hsource
  · exact requiredStr_of_lookup htype
  · exact requiredStr_of_lookup hkey
  · exact requiredStr_of_lookup htime
  · exact requiredStr_of_lookup htenant
  · exact requiredStr_of_lookup hschema
  · exact hsame
  all_goals
    refine hoptional ?_
    simp [ExecutionEnvelope.toDict, List.lookup_append, lookup_optionalEntry, Json.lookup_field]

/-- **What is published is decoded** to an equal envelope. -/
theorem decode_publish (repr : Json → String) (eventTopics : List (String × String))
    (h : ReadsBack loads (.obj e.toDict)) :
    ∃ e', decode loads repr (some (publish eventTopics e).value) = .ok e' ∧ e.Same e' := by
  obtain ⟨j, hloads, hsame⟩ := h
  obtain ⟨payload, rfl⟩ := hsame.obj
  obtain ⟨e', hfrom, he'⟩ := fromDict_toDict repr hsame
  refine ⟨e', ?_, he'⟩
  show (loads (Json.obj e.toDict).dumps.toUTF8 >>= fun j => _) = _
  rw [hloads]
  exact hfrom

end RoundTrip

end ExecutionBus
