import TinyHermes.Tools.OperationPaths

/-! What a model is told of an HTTP operation, and which of the calls that keep to it are made. -/
namespace TinyHermes.Tools
open Lib Lib.Templates
open Egress (urlsplit)

structure DescribedBinding extends BoundOperation where
  described : DescribedOperation
  describes : operation = described.toHttp

section Schemas

def propertySchema (q : DescribedParameter) : Document :=
  match q.description with
  | none => q.schema
  | some description => if description = "" then q.schema else JsonText.setField q.schema ("description", .string description)

/-- `properties`. -/
def properties (o : DescribedOperation) : Document :=
  let declared := o.parameters.foldl (fun properties q =>
    JsonText.setField properties (String.ofList q.name, .object (propertySchema q))) []
  match o.bodySchema with
  | none => declared
  | some schema => JsonText.setField declared ("body", .object schema)

/-- `required`. -/
def requiredNames (o : DescribedOperation) : List String :=
  (o.parameters.filter (·.required)).map (fun q => String.ofList q.name) ++ if o.bodySchema.isSome then ["body"] else []

def argumentsSchema (o : DescribedOperation) : Document :=
  [("type", .string "object"), ("properties", .object (properties o)), ("required", .array ((requiredNames o).map .string)),
    ("additionalProperties", .bool false)]

/-- `_description`. -/
def descriptionOf (o : DescribedOperation) : String :=
  let summary := match o.summary with
    | none => String.ofList o.operationId
    | some summary => if summary = "" then String.ofList o.operationId else summary
  if o.readOnly then summary else summary ++ " This changes data at the far end."

def schemaOf (b : DescribedBinding) : Document :=
  [("type", .string "function"), ("function", .object [("name", .string (String.ofList b.callName)),
    ("description", .string (descriptionOf b.described)), ("parameters", .object (argumentsSchema b.described))])]

/-- `schemas_for_operations`. -/
def schemasForOperations (bound : List DescribedBinding) : List Document := bound.map schemaOf

def parametersOfSchema (schema : Document) : Document :=
  (objectOf (((objectOf (schema.lookup "function")).getD []).lookup "parameters")).getD []

/-- An object with what a schema requires, and with nothing but its properties where it allows no others. -/
structure Satisfies (schema arguments : Document) : Prop where
  required : ∀ names, schema.lookup "required" = some (.array names) → ∀ name, .string name ∈ names → (arguments.lookup name).isSome = true
  properties : schema.lookup "additionalProperties" = some (.bool false) → ∀ field ∈ arguments,
    (((objectOf (schema.lookup "properties")).getD []).lookup field.1).isSome = true

theorem satisfies_iff (o : DescribedOperation) (arguments : Document) : Satisfies (argumentsSchema o) arguments ↔
    (∀ name ∈ requiredNames o, (arguments.lookup name).isSome = true) ∧
      ∀ field ∈ arguments, ((properties o).lookup field.1).isSome = true := by
  constructor
  · intro h
    exact ⟨fun name hname => h.required _ rfl name (List.mem_map_of_mem hname), h.properties rfl⟩
  · rintro ⟨hrequired, hproperties⟩
    refine ⟨fun names hnames name hname => hrequired name ?_, fun _ => hproperties⟩
    obtain rfl : (requiredNames o).map Json.string = names := Json.array.inj (Option.some.inj hnames)
    obtain ⟨_, hmem, hsame⟩ := List.mem_map.mp hname
    exact Json.string.inj hsame ▸ hmem

theorem lookup_isSome_setField (document : Document) (key other : String) (value : Json) :
    ((JsonText.setField document (key, value)).lookup other).isSome = true ↔ other = key ∨ (document.lookup other).isSome = true := by
  by_cases hsame : other = key
  · subst hsame
    rw [JsonText.lookup_setField]
    exact ⟨fun _ => .inl rfl, fun _ => rfl⟩
  · rw [JsonText.lookup_setField_ne hsame]
    exact ⟨.inr, fun h => h.resolve_left hsame⟩

theorem properties_iff (o : DescribedOperation) (key : String) : ((properties o).lookup key).isSome = true ↔
    (∃ q ∈ o.parameters, key = String.ofList q.name) ∨ (o.bodySchema.isSome = true ∧ key = "body") := by
  have hdeclared : ∀ (parameters : List DescribedParameter) (document : Document),
      ((parameters.foldl (fun properties q => JsonText.setField properties (String.ofList q.name, .object (propertySchema q)))
        document).lookup key).isSome = true ↔
        (∃ q ∈ parameters, key = String.ofList q.name) ∨ (document.lookup key).isSome = true := by
    intro parameters
    induction parameters with
    | nil => exact fun document => by simp
    | cons q rest ih =>
      intro _
      rw [List.foldl_cons, ih, lookup_isSome_setField, List.exists_mem_cons_iff, or_assoc, or_left_comm]
  rw [properties]
  cases hbody : o.bodySchema with
  | none =>
    dsimp only
    rw [hdeclared]
    simp
  | some =>
    dsimp only
    rw [lookup_isSome_setField, hdeclared]
    simp [or_comm]

end Schemas

section Accepting
variable {p : Spelling} {o : HttpOperation} {arguments : Document}

def filling (p : Spelling) (o : HttpOperation) (argument : String × Json) : Option (List Char → Option (List Char)) :=
  if InPath o argument.1.toList then (rendered p argument.1 argument.2).toOption.map fun text => only argument.1.toList (quote text)
  else none

def fillings (p : Spelling) (o : HttpOperation) (arguments : Document) : List (List Char → Option (List Char)) :=
  arguments.filterMap (filling p o)

def queried (p : Spelling) (o : HttpOperation) (arguments : Document) : List (List Char × List Char) :=
  arguments.filterMap fun argument =>
    if InPath o argument.1.toList then none else (rendered p argument.1 argument.2).toOption.map (argument.1.toList, ·)

def behind (query : List (List Char × List Char)) : List Char := if query.isEmpty then [] else '?' :: urlencode query

theorem fillings_unbraced : ∀ values ∈ fillings p o arguments, ∀ name value, values name = some value → ∀ c ∈ value, isBrace c = false := by
  intro _ hvalues _ _ hvalue
  obtain ⟨_, _, hfilling⟩ := List.mem_filterMap.mp hvalues
  rw [filling] at hfilling
  split_ifs at hfilling
  obtain ⟨text, _, rfl⟩ := Option.map_eq_some_iff.mp hfilling
  rw [only] at hvalue
  split_ifs at hvalue
  exact Option.some.inj hvalue ▸ quote_unbraced text

theorem firstValue_fillings (hrendered : ∀ argument ∈ arguments, ∃ text, rendered p argument.1 argument.2 = .ok text) :
    firstValue (fillings p o arguments) = pathValue p o arguments := by
  induction arguments with
  | nil =>
    funext name
    exact (ite_self _).symm
  | cons argument rest ih =>
    obtain ⟨_, _⟩ := argument
    obtain ⟨⟨_, htext⟩, hrest⟩ := List.forall_mem_cons.mp hrendered
    funext name
    rw [pathValue_cons htext, ← ih hrest, fillings, List.filterMap_cons, filling, htext]
    split_ifs with hin
    · exact congrFun (firstValue_cons _ _) name
    · rfl

theorem placed_eq (hrendered : ∀ argument ∈ arguments, ∃ text, rendered p argument.1 argument.2 = .ok text)
    (hnames : ∀ argument ∈ arguments, isArgumentName argument.1.toList = true) (path : List Char) (query : List (List Char × List Char)) :
    arguments.foldlM (place p o) (path, query) = .ok (refilled (fillings p o arguments) path, query ++ queried p o arguments) := by
  induction arguments generalizing path query with
  | nil =>
    rw [queried, List.filterMap_nil, List.append_nil]
    rfl
  | cons argument rest ih =>
    obtain ⟨key, value⟩ := argument
    obtain ⟨⟨text, htext⟩, hrest⟩ := List.forall_mem_cons.mp hrendered
    obtain ⟨hname, hnames⟩ := List.forall_mem_cons.mp hnames
    have hstep : place p o (path, query) (key, value) = .ok (if InPath o key.toList
        then (filled written (assigned (only key.toList (quote text)) (pieces path)), query) else (path, query ++ [(key.toList, text)])) := by
      have hbind : ∀ {α : Type} (f : List Char → Except HttpCallFault α), (Except.ok text >>= f) = f text := fun _ => rfl
      rw [← replaceFrom_written (argumentName_unbraced hname), place, htext, hbind]
      by_cases hin : InPath o key.toList
      · have hlocation : (declared o key.toList).map (·.location) = some .path := hin
        rw [if_pos hin]
        dsimp only
        rw [hlocation]
        rfl
      · rw [if_neg hin]
        dsimp only
        split
        · rename_i hlocation
          exact absurd hlocation hin
        · rfl
    rw [Fallible.foldlM_cons_ok]
    refine ⟨_, hstep, ?_⟩
    rw [fillings, queried, List.filterMap_cons, List.filterMap_cons, filling, htext]
    split_ifs with hin
    · exact ih hrest hnames _ _
    · rw [ih hrest hnames]
      exact congrArg (fun later => Except.ok (_, later)) (List.append_assoc _ _ _)

theorem rendered_of_placed {init placed : List Char × List (List Char × List Char)} (h : arguments.foldlM (place p o) init = .ok placed) :
    ∀ argument ∈ arguments, ∃ text, rendered p argument.1 argument.2 = .ok text := by
  induction arguments generalizing init with
  | nil => exact List.forall_mem_nil _
  | cons argument rest ih =>
    obtain ⟨_, hplace, h⟩ := Fallible.foldlM_cons_ok.mp h
    obtain ⟨text, htext, _⟩ := place_ok hplace
    exact List.forall_mem_cons.mpr ⟨⟨text, htext⟩, ih h⟩

def isScalar : Json → Bool
  | .array _ | .object _ => false
  | _ => true

theorem rendered_iff {name : String} {value : Json} (hscalar : isScalar value = true) :
    (∃ text, rendered p name value = .ok text) ↔ value ≠ .null := by
  cases value with
  | null => exact iff_of_false (fun ⟨_, h⟩ => by cases h) fun h => h rfl
  | array | object => cases hscalar
  | bool | int | float | string => exact iff_of_true ⟨_, rfl⟩ Json.noConfusion

theorem misnamed_none_iff : misnamed o arguments = none ↔ (∀ argument ∈ arguments, (declared o argument.1.toList).isSome = true) ∧
    (∀ q ∈ o.parameters, (declared o q.name).any (·.required) = true → (arguments.lookup (String.ofList q.name)).isSome = true) ∧
    ∀ argument ∈ arguments, isArgumentName argument.1.toList = true := by
  have hunknown : (!((arguments.map (·.1)).filter fun name => (declared o name.toList).isNone).isEmpty) = true ↔
      ¬ ∀ argument ∈ arguments, (declared o argument.1.toList).isSome = true := by
    rw [Bool.not_eq_true', ← Bool.not_eq_true, List.isEmpty_iff, List.filter_eq_nil_iff, List.forall_mem_map]
    simp
  have hmissing : (!(((o.parameters.map fun q => String.ofList q.name).dedup).filter fun name =>
      (declared o name.toList).any (·.required) && (arguments.lookup name).isNone).isEmpty) = true ↔
      ¬ ∀ q ∈ o.parameters, (declared o q.name).any (·.required) = true → (arguments.lookup (String.ofList q.name)).isSome = true := by
    rw [Bool.not_eq_true', ← Bool.not_eq_true, List.isEmpty_iff, List.filter_eq_nil_iff]
    simp
  rw [misnamed]
  split_ifs with hfirst hsecond
  · exact iff_of_false not_false fun h => hunknown.mp hfirst h.1
  · exact iff_of_false not_false fun h => hmissing.mp hsecond h.2.1
  · rw [and_iff_right (not_not.mp (mt hunknown.mpr hfirst)), and_iff_right (not_not.mp (mt hmissing.mpr hsecond)),
      List.find?_eq_none, List.forall_mem_map]
    simp

variable {b : BoundOperation} {call : ToolCallBlock}

theorem joined_eq {baseUrl : List Char} {parts : Egress.SplitResult} (hparts : urlsplit p.toHeadReading baseUrl = .ok parts)
    (path : List Char) : joined p baseUrl path = .ok (origin parts ++ (basePath parts ++ path)) := by
  rw [joined, hparts, origin, basePath]
  simp only [List.append_assoc]

def requestOf (p : Spelling) (b : BoundOperation) (call : ToolCallBlock) (parts : Egress.SplitResult) : HttpRequestPlan where
  method := b.operation.method
  url := origin parts ++ (basePath parts ++ refilled (fillings p b.operation (unbodied call)) b.operation.path ++
    behind (queried p b.operation (unbodied call)))
  body := (bodyOf call.arguments).map p.dumps
  headers := if (bodyOf call.arguments).isSome then [("Content-Type", "application/json")] else []
  readOnly := b.operation.readOnly

theorem requestPlan_eq_iff {parts : Egress.SplitResult} (hparts : urlsplit p.toHeadReading b.baseUrl = .ok parts) (plan : HttpRequestPlan) :
    requestPlan p b call = .ok plan ↔ misnamed b.operation (unbodied call) = none ∧
      (∀ argument ∈ unbodied call, ∃ text, rendered p argument.1 argument.2 = .ok text) ∧
      (bodyOf call.arguments).isSome = b.operation.bodySchema.isSome ∧ plan = requestOf p b call parts := by
  rw [requestPlan]
  dsimp only
  split
  · rename_i names hnames
    refine iff_of_false (fun h => by cases h) fun h => ?_
    rw [unbodied, hnames] at h
    cases h.1
  · rename_i hnone
    rw [unbodied, and_iff_right hnone]
    have hnames := (misnamed_none_iff.mp hnone).2.2
    have hcomposed : ∀ path query, composed p b (bodyOf call.arguments) path query = .ok plan ↔
        (bodyOf call.arguments).isSome = b.operation.bodySchema.isSome ∧
          plan = { requestOf p b call parts with url := origin parts ++ (basePath parts ++ path ++ behind query) } := by
      intro path query
      rw [composed]
      by_cases hbody : (bodyOf call.arguments).isSome = b.operation.bodySchema.isSome
      · rw [if_neg (by simpa using hbody), and_iff_right hbody, joined_eq hparts]
        have hbehind : (if query.isEmpty then origin parts ++ (basePath parts ++ path)
            else origin parts ++ (basePath parts ++ path) ++ '?' :: urlencode query) =
              origin parts ++ (basePath parts ++ path ++ behind query) := by
          rw [behind]
          split_ifs
          · rw [List.append_nil]
          · simp only [List.append_assoc]
        rw [requestOf, ← hbehind]
        exact ⟨fun h => (Except.ok.inj h).symm, fun h => congrArg Except.ok h.symm⟩
      · rw [if_pos (by simpa using hbody)]
        exact iff_of_false (fun h => by cases h) fun h => hbody h.1
    constructor
    · intro h
      obtain ⟨⟨_, _⟩, hplaced, h⟩ := Fallible.bind_ok.mp h
      have hrendered := rendered_of_placed hplaced
      rw [placed_eq hrendered hnames] at hplaced
      cases hplaced
      exact ⟨hrendered, (hcomposed _ _).mp h⟩
    · rintro ⟨hrendered, hplan⟩
      refine Fallible.bind_ok.mpr ⟨_, placed_eq hrendered hnames _ _, (hcomposed _ _).mpr hplan⟩

theorem misnamed_of_plan {plan : HttpRequestPlan} (h : requestPlan p b call = .ok plan) : misnamed b.operation (unbodied call) = none := by
  rw [requestPlan] at h
  dsimp only at h
  split at h
  · cases h
  · assumption

theorem declared_some {name : List Char} {q : OperationParameter} (h : declared o name = some q) :
    q ∈ o.parameters ∧ q.name = name := by
  rw [declared] at h
  exact ⟨List.mem_reverse.mp (List.mem_of_find?_eq_some h), by simpa using List.find?_some h⟩

theorem declared_isSome {name : List Char} : (declared o name).isSome = true ↔ ∃ q ∈ o.parameters, q.name = name := by
  rw [declared, List.find?_isSome]
  simp

theorem mem_unbodied {argument : String × Json} : argument ∈ unbodied call ↔
    argument ∈ call.arguments ∧ argument.1 ≠ "body" := by
  rw [unbodied, List.mem_filter, bne_iff_ne]

theorem bodyOf_given {value : Json} (h : arguments.lookup "body" = some value) (hnull : value ≠ .null) :
    bodyOf arguments = some value := by
  rw [bodyOf, h]
  cases value with
  | null => exact absurd rfl hnull
  | bool | int | float | string | array | object => rfl

theorem lookup_of_mem {document : Document} (hkeys : (document.map (·.1)).Nodup) {field : String × Json} (h : field ∈ document) :
    document.lookup field.1 = some field.2 := by
  obtain ⟨before, after, rfl⟩ := List.mem_iff_append.mp h
  rw [List.map_append, List.map_cons] at hkeys
  refine List.lookup_eq_some_iff.mpr ⟨before, after, rfl, fun other hother => bne_iff_ne.mpr ?_⟩
  exact ((List.nodup_append.mp hkeys).2.2 other.1 (List.mem_map_of_mem hother) field.1 List.mem_cons_self).symm

end Accepting

/-- A call of a bound operation, by an object that satisfies the schema that is told of it, with values that are no lists and no
objects besides the body. -/
structure AdvertisedCall (p : Spelling) where
  reading : DescriptionReading
  description : List Char
  document : OpenApiDocument
  parsed : parseDocument reading description = .ok document
  bound : List DescribedBinding
  binding : DescribedBinding
  offered : binding.described ∈ document.operations
  parts : Egress.SplitResult
  registered : urlsplit p.toHeadReading binding.baseUrl = .ok parts
  call : ToolCallBlock
  named : bound.find? (·.callName == call.name) = some binding
  keys : (call.arguments.map (·.1)).Nodup
  satisfies : Satisfies (parametersOfSchema (schemaOf binding)) call.arguments
  scalars : ∀ argument ∈ unbodied call, isScalar argument.2 = true

namespace AdvertisedCall
variable {p : Spelling} (a : AdvertisedCall p)

/-- The request is made, and has every value where its parameter stands: as the body, in the holes of the path with its name, or
in the query. -/
def Carried : Prop :=
  ∃ plan, httpCallOf p a.call (a.bound.map (·.toBoundOperation)) = .ok plan ∧
    plan.url = origin a.parts ++ (basePath a.parts ++
      filled written (assigned (pathValue p a.binding.operation (unbodied a.call)) (pieces a.binding.operation.path)) ++
        behind (queried p a.binding.operation (unbodied a.call))) ∧
    plan.body = (a.call.arguments.lookup "body").map p.dumps ∧
    ∀ argument ∈ unbodied a.call, ∃ text, rendered p argument.1 argument.2 = .ok text ∧
      if InPath a.binding.operation argument.1.toList then .hole argument.1.toList ∈ pieces a.binding.operation.path ∧
        pathValue p a.binding.operation (unbodied a.call) argument.1.toList = some (quote text)
      else (argument.1.toList, text) ∈ queried p a.binding.operation (unbodied a.call)

/-- What the schema leaves open: plain names, no value null, no required parameter called as the body is, a body only where one is
taken, and no value in the path that makes a hole behind it. -/
structure Callable : Prop where
  names : ∀ argument ∈ unbodied a.call, isArgumentName argument.1.toList = true
  values : ∀ argument ∈ unbodied a.call, argument.2 ≠ .null
  unshadowed : (declared a.binding.operation "body".toList).any (·.required) = false
  body : if a.binding.operation.bodySchema.isSome then a.call.arguments.lookup "body" ≠ some .null
    else a.call.arguments.lookup "body" = none
  undisturbed : Undisturbed (fillings p a.binding.operation (unbodied a.call)) (pieces a.binding.operation.path)

variable {a}

theorem satisfied : (∀ name ∈ requiredNames a.binding.described, (a.call.arguments.lookup name).isSome = true) ∧
    ∀ argument ∈ a.call.arguments, ((properties a.binding.described).lookup argument.1).isSome = true :=
  (satisfies_iff a.binding.described a.call.arguments).mp a.satisfies

theorem misnamed_iff : misnamed a.binding.operation (unbodied a.call) = none ↔
    (∀ argument ∈ unbodied a.call, isArgumentName argument.1.toList = true) ∧
      (declared a.binding.operation "body".toList).any (·.required) = false := by
  obtain ⟨hrequired, hproperties⟩ := @satisfied p a
  have hdeclared : ∀ argument ∈ unbodied a.call, (declared a.binding.operation argument.1.toList).isSome = true := by
    intro argument hargument
    obtain ⟨hargument, hbody⟩ := mem_unbodied.mp hargument
    rw [declared_isSome, a.binding.describes]
    rcases (properties_iff _ _).mp (hproperties argument hargument) with ⟨q, hq, hname⟩ | ⟨_, hname⟩
    · refine ⟨_, List.mem_map_of_mem hq, ?_⟩
      rw [hname, String.toList_ofList]
    · exact absurd hname hbody
  rw [misnamed_none_iff, and_iff_right hdeclared, and_comm]
  refine and_congr_right fun _ => ⟨fun hgiven => ?_, fun hbody q hq hneeded => ?_⟩
  · rw [← Bool.not_eq_true]
    intro hneeded
    obtain ⟨q, hq, _⟩ := (Option.any_eq_true _ _).mp hneeded
    obtain ⟨hmem, hname⟩ := declared_some hq
    have hsome := hgiven q hmem (hname ▸ hneeded)
    rw [unbodied, lookup_unbodied, hname, String.ofList_toList, if_pos rfl] at hsome
    cases hsome
  · have hname : String.ofList q.name ≠ "body" := by
      intro hname
      rw [← hname, String.toList_ofList, hneeded] at hbody
      cases hbody
    rw [unbodied, lookup_unbodied, if_neg hname]
    obtain ⟨_, hq', hneeded'⟩ := (Option.any_eq_true _ _).mp hneeded
    obtain ⟨hmem, hsame⟩ := declared_some hq'
    rw [a.binding.describes] at hmem
    obtain ⟨described, hdescribed, rfl⟩ := List.mem_map.mp hmem
    rw [← hsame]
    exact hrequired _ (List.mem_append_left _ (List.mem_map.mpr ⟨described, List.mem_filter.mpr ⟨hdescribed, hneeded'⟩, rfl⟩))

theorem body_iff : (bodyOf a.call.arguments).isSome = a.binding.operation.bodySchema.isSome ∧
    (bodyOf a.call.arguments).map p.dumps = (a.call.arguments.lookup "body").map p.dumps ↔
      if a.binding.operation.bodySchema.isSome then a.call.arguments.lookup "body" ≠ some .null
      else a.call.arguments.lookup "body" = none := by
  have hgiven : a.binding.operation.bodySchema.isSome = true → (a.call.arguments.lookup "body").isSome = true := by
    intro hschema
    refine (@satisfied p a).1 "body" (List.mem_append_right _ ?_)
    have hdescribed : a.binding.described.bodySchema.isSome = true := by
      rw [a.binding.describes] at hschema
      exact hschema
    rw [if_pos hdescribed]
    exact List.mem_singleton_self _
  cases hbody : a.call.arguments.lookup "body" with
  | none =>
    have hnone : a.binding.operation.bodySchema.isSome = false := by
      rw [← Bool.not_eq_true]
      intro hschema
      have hsome := hgiven hschema
      rw [hbody] at hsome
      cases hsome
    have hno : bodyOf a.call.arguments = none := by rw [bodyOf, hbody]
    rw [hnone, hno]
    exact iff_of_true ⟨rfl, rfl⟩ rfl
  | some value =>
    by_cases hnull : value = .null
    · subst hnull
      have hno : bodyOf a.call.arguments = none := by rw [bodyOf, hbody]
      rw [hno]
      refine iff_of_false (fun h => by cases h.2) ?_
      cases a.binding.operation.bodySchema.isSome with
      | true => exact fun h => h rfl
      | false => exact Option.some_ne_none _
    · rw [bodyOf_given hbody hnull, and_iff_left rfl, Option.isSome_some]
      cases a.binding.operation.bodySchema.isSome with
      | true => exact iff_of_true rfl fun h => hnull (Option.some.inj h)
      | false => exact iff_of_false Bool.noConfusion (Option.some_ne_none _)

theorem path_iff (hrendered : ∀ argument ∈ unbodied a.call, ∃ text, rendered p argument.1 argument.2 = .ok text) :
    refilled (fillings p a.binding.operation (unbodied a.call)) a.binding.operation.path =
      filled written (assigned (pathValue p a.binding.operation (unbodied a.call)) (pieces a.binding.operation.path)) ↔
        Undisturbed (fillings p a.binding.operation (unbodied a.call)) (pieces a.binding.operation.path) := by
  rw [← refilled_eq_iff fillings_unbraced (pieces_named _), pieces_written, firstValue_fillings hrendered]

theorem placed_somewhere {argument : String × Json} (hargument : argument ∈ unbodied a.call) {text : List Char}
    (htext : rendered p argument.1 argument.2 = .ok text) :
    if InPath a.binding.operation argument.1.toList then .hole argument.1.toList ∈ pieces a.binding.operation.path ∧
      pathValue p a.binding.operation (unbodied a.call) argument.1.toList = some (quote text)
    else (argument.1.toList, text) ∈ queried p a.binding.operation (unbodied a.call) := by
  split_ifs with hin
  · constructor
    · obtain ⟨q, hq, hlocation⟩ := Option.map_eq_some_iff.mp hin
      obtain ⟨hmem, hname⟩ := declared_some hq
      have hchecked := parseDocument_checked a.parsed _ a.offered
      have hsupplied : argument.1.toList ∈ supplied a.binding.operation.parameters :=
        List.mem_map.mpr ⟨q, List.mem_filter.mpr ⟨hmem, beq_iff_eq.mpr hlocation⟩, hname⟩
      rw [a.binding.describes] at hsupplied ⊢
      exact mem_holes.mp ((hchecked.supplied_iff _).mp hsupplied)
    · obtain ⟨hgiven, hbody⟩ := mem_unbodied.mp hargument
      have hlookup : (unbodied a.call).lookup argument.1 = some argument.2 := by
        rw [unbodied, lookup_unbodied, if_neg hbody]
        exact lookup_of_mem a.keys hgiven
      rw [pathValue, if_pos hin, textGiven, String.ofList_toList, hlookup, Option.bind_some, htext]
      rfl
  · refine List.mem_filterMap.mpr ⟨argument, hargument, ?_⟩
    rw [if_neg hin, htext]
    rfl

theorem planned_eq : httpCallOf p a.call (a.bound.map (·.toBoundOperation)) = requestPlan p a.binding.toBoundOperation a.call := by
  refine httpCallOf_found ?_
  rw [List.find?_map]
  exact congrArg (Option.map (·.toBoundOperation)) a.named

theorem carried_iff : a.Carried ↔ a.Callable := by
  have hvalues : (∀ argument ∈ unbodied a.call, ∃ text, rendered p argument.1 argument.2 = .ok text) ↔
      ∀ argument ∈ unbodied a.call, argument.2 ≠ .null :=
    forall₂_congr fun argument hargument => rendered_iff (a.scalars argument hargument)
  constructor
  · rintro ⟨_, haccepted, hurl, hbody, _⟩
    rw [planned_eq, requestPlan_eq_iff a.registered] at haccepted
    obtain ⟨hnamed, hrendered, hschema, rfl⟩ := haccepted
    obtain ⟨hnames, hunshadowed⟩ := misnamed_iff.mp hnamed
    have hpath := List.append_cancel_left (List.append_cancel_right (List.append_cancel_left hurl))
    exact ⟨hnames, hvalues.mp hrendered, hunshadowed, body_iff.mp ⟨hschema, hbody⟩, (path_iff hrendered).mp hpath⟩
  · intro h
    have hrendered := hvalues.mpr h.values
    obtain ⟨hschema, hbody⟩ := body_iff.mpr h.body
    refine ⟨requestOf p a.binding.toBoundOperation a.call a.parts, ?_, ?_, hbody, fun argument hargument => ?_⟩
    · rw [planned_eq, requestPlan_eq_iff a.registered]
      exact ⟨misnamed_iff.mpr ⟨h.names, h.unshadowed⟩, hrendered, hschema, rfl⟩
    · rw [requestOf, (path_iff hrendered).mpr h.undisturbed]
    · obtain ⟨text, htext⟩ := hrendered argument hargument
      exact ⟨text, htext, placed_somewhere hargument htext⟩

end AdvertisedCall

namespace AcceptedRequest
variable {p : Spelling} (a : AcceptedRequest p)

def Advertised : Prop := ∀ argument ∈ a.call.arguments, ((properties a.operation).lookup argument.1).isSome = true

/-- A body is given, if only null, and the operation has neither one nor a parameter called so. -/
def Unbidden : Prop := a.operation.bodySchema = none ∧ (∃ argument ∈ a.call.arguments, argument.1 = "body") ∧
  ∀ q ∈ a.operation.parameters, String.ofList q.name ≠ "body"

theorem advertised_iff : a.Advertised ↔ ¬ a.Unbidden := by
  constructor
  · rintro hadvertised ⟨hschema, ⟨argument, hargument, hbody⟩, hnames⟩
    rcases (properties_iff _ _).mp (hadvertised argument hargument) with ⟨q, hq, hname⟩ | ⟨hsome, _⟩
    · exact hnames q hq (hname.symm.trans hbody)
    · rw [hschema] at hsome
      cases hsome
  · intro h argument hargument
    rw [properties_iff]
    by_cases hbody : argument.1 = "body"
    · by_contra hnone
      rw [not_or, not_and_or, Bool.not_eq_true, Option.isSome_eq_false_iff, Option.isNone_iff_eq_none] at hnone
      refine h ⟨hnone.2.resolve_right fun hnot => hnot hbody, ⟨argument, hargument, hbody⟩, fun q hq hname => ?_⟩
      exact hnone.1 ⟨q, hq, hbody.trans hname.symm⟩
    · have hdeclared := (misnamed_none_iff.mp (misnamed_of_plan (requestPlan_ok (a := a)))).1 argument
        (mem_unbodied.mpr ⟨hargument, hbody⟩)
      obtain ⟨_, hq, hname⟩ := declared_isSome.mp hdeclared
      rw [a.binds] at hq
      obtain ⟨described, hdescribed, rfl⟩ := List.mem_map.mp hq
      refine .inl ⟨described, hdescribed, ?_⟩
      rw [hname, String.ofList_toList]

end AcceptedRequest

/-- A call that satisfies the schema is made as it is just where it is callable, and one that is made has only properties of the
schema but for a body that is null. -/
theorem advertised_callable_iff (p : Spelling) : (∀ a : AdvertisedCall p, a.Carried ↔ a.Callable) ∧
    ∀ a : AcceptedRequest p, a.Advertised ↔ ¬ a.Unbidden :=
  ⟨fun _ => AdvertisedCall.carried_iff, AcceptedRequest.advertised_iff⟩

/-- A description with one operation, whose list a parameter called `filter[x]` may narrow. -/
def listings : Document :=
  [("info", .object []), ("openapi", .string "3"),
    ("paths", .object [("/o", .object [("get", .object [("operationId", .string "list"),
      ("parameters", .array [.object [("in", .string "query"), ("name", .string "filter[x]")]])])])])]

def listOrders : DescribedOperation where
  operationId := "list".toList
  method := "GET"
  path := "/o".toList
  summary := none
  parameters := [{ name := "filter[x]".toList, location := .query, required := false, schema := [("type", .string "string")],
                   description := none }]
  bodySchema := none

theorem listings_plain : JsonText.Plain (.object listings) := by
  have hparameter : JsonText.Plain (.object [("in", .string "query"), ("name", .string "filter[x]")]) := by
    refine .object (by decide) fun field hfield => ?_
    rcases List.mem_pair.mp hfield with rfl | rfl
    · exact .string _
    · exact .string _
  have hget : JsonText.Plain (.object [("operationId", .string "list"),
      ("parameters", .array [.object [("in", .string "query"), ("name", .string "filter[x]")]])]) := by
    refine .object (by decide) fun field hfield => ?_
    rcases List.mem_pair.mp hfield with rfl | rfl
    · exact .string _
    · exact .array (List.forall_mem_singleton.mpr hparameter)
  have hpaths := JsonText.Plain.object (List.pairwise_singleton _ ("/o", _)) (List.forall_mem_singleton.mpr
    (JsonText.Plain.object (List.pairwise_singleton _ ("get", _)) (List.forall_mem_singleton.mpr hget)))
  refine .object (by decide) fun field hfield => ?_
  rcases List.mem_cons.mp hfield with rfl | hfield
  · exact .object List.Pairwise.nil (List.forall_mem_nil _)
  · rcases List.mem_pair.mp hfield with rfl | rfl
    · exact .string _
    · exact hpaths

set_option maxRecDepth 4000 in
theorem listings_short : (JsonText.write (fun _ => []) (.object listings)).length ≤ 1000 := by decide

theorem listings_parsed : parseDocument plainReading (JsonText.write (fun _ => []) (.object listings)) = .ok
    { title := "", version := "", operations := [listOrders], contentHash := "" } := by
  have hsize : ¬ maxDocumentBytes < (Utf8.encode (JsonText.write (fun _ => []) (.object listings))).length := by
    have hbytes := Utf8.length_encode_le (JsonText.write (fun _ => []) (.object listings))
    have hshort := listings_short
    rw [maxDocumentBytes]
    omega
  rw [parseDocument, if_neg hsize, JsonText.loads_write _ _ listings_plain]
  rfl

def listBinding : DescribedBinding where
  toolName := "shop".toList
  versionId := 1
  baseUrl := "https://a.b/v2".toList
  credentialRef := none
  operation := listOrders.toHttp
  described := listOrders
  describes := rfl

def narrowedCall : ToolCallBlock where
  callId := "1"
  name := "http.shop.list".toList
  arguments := [("filter[x]", .string "new")]

theorem narrowedCall_satisfies : Satisfies (parametersOfSchema (schemaOf listBinding)) narrowedCall.arguments := by
  have hnone : ∀ name, name ∉ requiredNames listOrders := fun _ => List.not_mem_nil
  refine (satisfies_iff listOrders narrowedCall.arguments).mpr ⟨fun name hname => absurd hname (hnone name), fun argument hargument => ?_⟩
  rw [properties_iff]
  exact .inl ⟨_, List.mem_singleton_self _, congrArg Prod.fst (List.mem_singleton.mp hargument)⟩

def narrowed : AdvertisedCall plainSpelling where
  reading := plainReading
  description := JsonText.write (fun _ => []) (.object listings)
  document := { title := "", version := "", operations := [listOrders], contentHash := "" }
  parsed := listings_parsed
  bound := [listBinding]
  binding := listBinding
  offered := List.mem_singleton_self _
  parts := { scheme := "https".toList, netloc := "a.b".toList, path := "/v2".toList, query := [] }
  registered := rfl
  call := narrowedCall
  named := rfl
  keys := List.nodup_singleton _
  satisfies := narrowedCall_satisfies
  scalars := List.forall_mem_singleton.mpr rfl

theorem narrowed_refused : httpCallOf plainSpelling narrowed.call (narrowed.bound.map (·.toBoundOperation)) =
    .error (.refused "invalid_arguments" "filter[x]") ∧ ¬ narrowed.Carried := by
  have hrefused : httpCallOf plainSpelling narrowed.call (narrowed.bound.map (·.toBoundOperation)) =
      .error (.refused "invalid_arguments" "filter[x]") := by
    rfl
  refine ⟨hrefused, ?_⟩
  rintro ⟨_, haccepted, _⟩
  rw [hrefused] at haccepted
  cases haccepted

end TinyHermes.Tools
