import Clear.Core.Stdlib
import Clear.Lib.Dict

/-!
# Strict schemas (`ai/rag/schema_compat.py`)

A JSON Schema made acceptable to strict structured outputs, and the response put back. A free-form
object travels as an array of key/value pairs, recorded by its path in the payload. `none` is a
schema on which the compiler raises.
-/

namespace Clear.SchemaCompat

open Value (get)

def unsupportedKeywords : List String :=
  ["minimum", "maximum", "exclusiveMinimum", "exclusiveMaximum", "multipleOf", "minLength",
    "maxLength", "pattern", "minItems", "maxItems", "uniqueItems", "minProperties",
    "maxProperties", "default", "examples", "format"]

def subschemaMaps : List String := ["properties", "$defs", "definitions"]

def subschemaLists : List String := ["anyOf", "oneOf", "allOf"]

inductive PathStep where
  | prop (name : String)
  | items
  deriving DecidableEq, Repr

abbrev Path := List PathStep

structure CompiledSchema where
  schema : ValueDict
  freeformPaths : List Path

/-! ## Compile -/

/-- `[declared] if isinstance(declared, str) else list(declared or ())`. -/
def types (node : ValueDict) : Option (List Value) :=
  match get node "type" with
  | .str s => some [.str s]
  | declared => if declared.truthy then declared.iter else some []

def isObject (node : ValueDict) : Option Bool :=
  (types node).map fun types =>
    types.any (Value.isStr "object") || (get node "properties").asDict?.isSome

def isFreeformObject (node : ValueDict) : Option Bool :=
  if "$ref" ∈ node.map (·.1) then some false
  else if node = [] then some true
  else
    (types node).map fun types =>
      let properties := (get node "properties").asDict?
      if !types.any (Value.isStr "object") && !properties.isSome then false
      else if (get node "additionalProperties").isTrue then true
      else (properties.getD []).isEmpty

def guidance : String :=
  "Return the attributes as a list of \x7bkey, value\x7d pairs - one entry per attribute you can " ++
  "support from the evidence, and an empty list when the evidence supports none. Write each " ++
  "value as plain text; use JSON for a number, true/false, or a list."

def pairSchema : Value :=
  .dict [("type", .str "object"),
    ("properties", .dict [
      ("key", .dict [("type", .str "string"),
        ("description", .str "The attribute name, in snake_case.")]),
      ("value", .dict [("type", .list [.str "string", .str "null"]),
        ("description", .str "The attribute value. Null when not stated.")])]),
    ("required", .list [.str "key", .str "value"]),
    ("additionalProperties", .bool false)]

def freeformSchema (std : Stdlib) (node : ValueDict) : ValueDict :=
  let description := Text.strip (((get node "description").or (.str "")).text std)
  [("type", .str "array"),
    ("description", .str (Text.strip (description ++ " " ++ guidance))),
    ("items", pairSchema)]

/-- `list(declared) if isinstance(declared, list) else [declared]`. -/
def unionTypes : Value → List Value
  | .list l => l
  | declared => [declared]

def acceptsNull : Value → Value
  | .dict node =>
    let declared := get node "type"
    let types := unionTypes declared
    if declared.isNull || types.any (Value.isStr "null") then .dict node
    else
      let widened := Dict.assign node "type" (.list (types ++ [.str "null"]))
      match get widened "enum" with
      | .list l =>
        if l.any Value.isNull then .dict widened
        else .dict (Dict.assign widened "enum" (.list (l ++ [.null])))
      | _ => .dict widened
  | v => v

/-- `set(node.get("required") or ())`: `set` raises a `TypeError` on an element without a hash. -/
def requiredNames (node : ValueDict) : Option (List Value) :=
  let required := get node "required"
  if required.truthy then required.iter.bind fun l => if l.all Value.hashable then some l else none
  else some []

def requireAll (required : List Value) (key : String) : Value → Value
  | .dict properties =>
    if key = "properties" then
      .dict (properties.map fun p =>
        (p.1, if required.any (Value.isStr p.1) then p.2 else acceptsNull p.2))
    else .dict properties
  | v => v

/-- Every property named is required, the optional ones of `required` as nullable. -/
def requireProperties (result : ValueDict) : Option ValueDict :=
  match get result "properties" with
  | .dict (p :: properties) =>
    (requiredNames result).map fun required =>
      Dict.assign (result.map fun e => (e.1, requireAll required e.1 e.2)) "required"
        (Value.ofStrs ((p :: properties).map (·.1)))
  | _ => some result

/-- The end of `_compile`: an object is closed. -/
def closeObject (result : ValueDict) : Option ValueDict :=
  (isObject result).bind fun object =>
    if object then
      (requireProperties result).map fun result =>
        Dict.assign result "additionalProperties" (.bool false)
    else some result

mutual

/-- `_compile(node, path=path, found=found)`: the compiled node and what it appends to `found`. -/
def compile (std : Stdlib) (path : Path) : Value → Option (Value × List Path)
  | .list l => (compileList std path l).map fun r => (.list r.1, r.2)
  | .dict node =>
    (isFreeformObject node).bind fun freeform =>
      if freeform then some (.dict (freeformSchema std node), [path])
      else
        (compileItems std path node).bind fun r =>
          (closeObject r.1).map fun result => (.dict result, r.2)
  | v => some (v, [])

def compileList (std : Stdlib) (path : Path) : List Value → Option (List Value × List Path)
  | [] => some ([], [])
  | v :: l =>
    (compile std path v).bind fun r =>
      (compileList std path l).map fun s => (r.1 :: s.1, r.2 ++ s.2)

/-- The keywords of a node, in order. -/
def compileItems (std : Stdlib) (path : Path) : ValueDict → Option (ValueDict × List Path)
  | [] => some ([], [])
  | (key, value) :: node =>
    if key ∈ unsupportedKeywords then compileItems std path node
    else
      (if key ∈ subschemaMaps then
        match value with
        | .dict m => (compileMap std path (key = "properties") m).map fun r => (.dict r.1, r.2)
        | _ => none
      else if key ∈ subschemaLists then
        match value with
        | .list l => (compileList std path l).map fun r => (.list r.1, r.2)
        | v => v.iter.map fun l => (.list l, [])
      else compile std (if key = "items" then path ++ [.items] else path) value).bind fun r =>
        (compileItems std path node).map fun s => ((key, r.1) :: s.1, r.2 ++ s.2)

/-- A map of subschemas: the names of `properties` are steps of the path. -/
def compileMap (std : Stdlib) (path : Path) (properties : Bool) :
    ValueDict → Option (ValueDict × List Path)
  | [] => some ([], [])
  | (name, sub) :: m =>
    (compile std (if properties then path ++ [.prop name] else path) sub).bind fun r =>
      (compileMap std path properties m).map fun s => ((name, r.1) :: s.1, r.2 ++ s.2)

end

def compileStrict (std : Stdlib) (schema : ValueDict) : Option CompiledSchema :=
  (compile std [] (.dict schema)).map fun r =>
    { schema := (r.1.asDict?).getD [], freeformPaths := r.2 }

/-! ## Restore -/

/-- What recovers a value from its text: whether `_JSON_ISH` matches it, and `json.loads`, absent
where it raises a `ValueError`. -/
structure Decoder where
  jsonIsh : String → Bool
  loads : String → Option Value

def Decoder.decode (json : Decoder) : Value → Value
  | .str s => if json.jsonIsh s then (json.loads s).getD (.str s) else .str s
  | v => v

def pair? (json : Decoder) : Value → Option (String × Value)
  | .dict entry =>
    match get entry "key" with
    | .str key => if key = "" then none else some (key, json.decode (get entry "value"))
    | _ => none
  | _ => none

def pairsToDict (json : Decoder) : Value → Value
  | .dict d => .dict d
  | .list l => .dict (Dict.ofItems (l.filterMap (pair? json)))
  | _ => .dict []

/-- `_restore_at`, with `f` for `_pairs_to_dict`: what stands at a path that ends in a property is
replaced in the dict that holds it. -/
def alterAt (f : Value → Value) : Path → Value → Value
  | .items :: rest, .list l => .list (l.map (alterAt f rest))
  | .prop name :: rest, .dict d =>
    .dict (d.map fun e =>
      if e.1 = name then (e.1, if rest = [] then f e.2 else alterAt f rest e.2) else e)
  | _, node => node

def restoreAt (json : Decoder) : Path → Value → Value := alterAt (pairsToDict json)

def restorePayload (json : Decoder) (data : Value) (freeformPaths : List Path) : Value :=
  if freeformPaths = [] then data
  else freeformPaths.foldl (fun data path => restoreAt json path data) data

end Clear.SchemaCompat
