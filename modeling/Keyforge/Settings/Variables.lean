import Keyforge.Settings.Basic

/-!
# Settings in the environment

Every setting can be given by a variable of the environment that is named like the setting, behind a
common start. Lists and groups are given in JSON.
-/

namespace Keyforge.Settings

open Datum

abbrev Environment := List (String × String)

inductive Error where
  | invalid (issues : List Issue)
  | variable (field : String)
  | noVariable (field : String)
  | key
  | choice
  | tooDeep
  deriving Repr, DecidableEq

/-! ### Choices -/

structure Choices where
  /-- What the names of variables start with, none if it is no text. -/
  start? : Option String := some "KEYMAP_COMPILER_"
  isExact : Bool := false
  skipsEmpty : Bool := false
  null? : Option String := none
  /-- What stands between the name of a group and that of a setting in it, empty if settings of groups
  have no variables of their own. -/
  divider : String := ""
  /-- How often names are divided, if that is limited. -/
  divisions? : Option Nat := none
  fillsGroups : Bool := false
  deriving Repr, DecidableEq

def choiceNames : List String :=
  ["_case_sensitive", "_nested_model_default_partial_update", "_env_prefix", "_env_file",
    "_env_file_encoding", "_env_ignore_empty", "_env_nested_delimiter", "_env_nested_max_split",
    "_env_parse_none_str", "_env_parse_enums", "_cli_prog_name", "_cli_parse_args",
    "_cli_settings_source", "_cli_parse_none_str", "_cli_hide_none_type", "_cli_avoid_json",
    "_cli_enforce_required", "_cli_use_class_docs_for_groups", "_cli_exit_on_error", "_cli_prefix",
    "_cli_flag_prefix_char", "_cli_implicit_flags", "_cli_ignore_unknown_args", "_cli_kebab_case",
    "_cli_shortcuts", "_secrets_dir"]

def isChoice (entry : Datum × Datum) : Bool :=
  match entry.1 with
  | .text name => choiceNames.contains name
  | _ => false

def isYes : Datum → Bool
  | .null => false
  | .bool b => b
  | .int n => n != 0
  | .float x => x != 0.0
  | .text s => s != ""
  | .bytes bs => !bs.isEmpty
  | .list xs | .tuple xs | .set xs => !xs.isEmpty
  | .map es => !es.isEmpty
  | _ => true

def isPaths : Datum → Bool
  | .null | .text _ => true
  | .list xs | .tuple xs | .set xs => xs.all fun | .text _ => true | _ => false
  | .map es => es.all fun (k, _) => match k with | .text _ => true | _ => false
  | _ => false

def startOf : Datum → Except Error (Option String)
  | .null => .ok (some "KEYMAP_COMPILER_")
  | .text s => .ok (some s)
  | .bytes _ | .list _ | .tuple _ | .set _ | .map _ => .ok none
  | _ => .error .choice

def divisionsOf (value : Datum) : Except Error (Option Nat) :=
  match value.integral?, isYes value with
  | some n, _ => .ok (if n < 1 then none else some (n - 1).toNat)
  | none, false => .ok none
  | none, true => .error .choice

def textOr : Datum → String
  | .text s => s
  | _ => ""

def chosen (es : List (Datum × Datum)) (name : String) : Datum :=
  match entry? name es with
  | some value => value
  | none => .null

def Choices.of (es : List (Datum × Datum)) : Except Error Choices := do
  let get := chosen es
  if !isPaths (get "_env_file") then .error .choice
  return {
    start? := ← startOf (get "_env_prefix")
    isExact := isYes (get "_case_sensitive")
    skipsEmpty := isYes (get "_env_ignore_empty")
    null? := match get "_env_parse_none_str" with
      | .text s => some s
      | _ => none
    divider := textOr (get "_env_nested_delimiter")
    divisions? := ← divisionsOf (get "_env_nested_max_split")
    fillsGroups := isYes (get "_nested_model_default_partial_update") }

/-! ### Variables -/

structure Variable where
  raw : String
  isNull : Bool

namespace Choices

def fold (c : Choices) (name : String) : String := if c.isExact then name else Text.lower name

def seen (c : Choices) (env : Environment) : List (String × Variable) :=
  Pairs.ofList <| (env.filter fun (_, raw) => !(c.skipsEmpty && raw == "")).map fun (name, raw) =>
    (c.fold name, ⟨raw, c.null? == some raw⟩)

end Choices

def structuredValue (field raw : String) : Except Error Datum :=
  (Json.read raw).mapError fun
    | .tooDeep => .tooDeep
    | _ => .variable field

def properName (names : List String) (key : Datum) : Datum :=
  match key with
  | .text s => .text ((names.find? fun name => name == Text.lower s).getD s)
  | other => other

/-! ### Settings of groups -/

def cutAt? (what : List Char) : List Char → Option (List Char × List Char)
  | [] => none
  | c :: rest =>
    match Text.after? what (c :: rest) with
    | some behind => some ([], behind)
    | none => (cutAt? what rest).map fun (before, behind) => (c :: before, behind)

def divide (what : List Char) : Nat → List Char → List (List Char)
  | 0, cs => [cs]
  | n + 1, cs =>
    match cutAt? what cs with
    | none => [cs]
    | some (before, behind) => before :: divide what n behind

def putInside (isNull : Bool) (value : Datum) : (names : List String) → (last : String) →
    List (Datum × Datum) → List (Datum × Datum)
  | [], last, es =>
    match entry? last es with
    | none | some (.map []) => putEntry (.text last) value es
    | some _ => if isNull then es else putEntry (.text last) value es
  | name :: names, last, es =>
    match entry? name es with
    | none => putEntry (.text name) (.map (putInside isNull value names last [])) es
    | some (.map inner) =>
      putEntry (.text name) (.map (putInside isNull value names last inner)) es
    | some _ => es

def member? (c : Choices) (start : String) (form : Form) (name : String) : Option (String × Bool) :=
  match form with
  | .group members =>
    members.find? fun (member, _) =>
      if c.isExact then name == member || name == start ++ member
      else Text.lower name == member || Text.lower name == Text.lower (start ++ member)
  | _ => none

def partValue (c : Choices) (start : String) (field : Field) (names : List String) (last : String)
    (v : Variable) : Except Error (Bool × Datum) :=
  match if names.isEmpty then member? c start field.form last else none with
  | some (_, true) =>
    if v.raw == "" then .ok (v.isNull, if v.isNull then .null else .text v.raw)
    else (structuredValue field.name v.raw).map fun value => (false, value)
  | _ => .ok (v.isNull, if v.isNull then .null else .text v.raw)

def variableParts (c : Choices) (start : String) (vars : List (String × Variable)) (field : Field) :
    Except Error (List (Datum × Datum)) :=
  if c.divider == "" then .ok []
  else
    let front := (c.fold (start ++ field.name) ++ c.divider).toList
    vars.foldlM (fun es (name, v) =>
      match Text.after? front name.toList with
      | none => pure es
      | some rest => do
        let pieces := (divide c.divider.toList (c.divisions?.getD rest.length) rest).map String.ofList
        let last := pieces.getLastD ""
        let (isNull, value) ← partValue c start field pieces.dropLast last v
        return putInside isNull value pieces.dropLast last es) []

/-! ### Settings -/

def variableValue (c : Choices) (vars : List (String × Variable)) (field : Field) :
    Except Error (Option Datum) :=
  match c.start? with
  | none => .error (.noVariable field.name)
  | some start =>
    match vars.lookup (c.fold (start ++ field.name)), field.form with
    | some ⟨_, true⟩, _ => .ok (some .null)
    | some ⟨raw, false⟩, .plain => .ok (some (.text raw))
    | none, .plain => .ok none
    | none, _ => do
      let parts ← variableParts c start vars field
      return if parts.isEmpty then none else some (.map parts)
    | some ⟨raw, false⟩, _ => do
      match ← structuredValue field.name raw with
      | .map es => return some (.map (mergeEntries es (← variableParts c start vars field)))
      | .null => return none
      | value => return some value

def withProperNames (c : Choices) (form : Form) (value : Datum) : Datum :=
  match form, value with
  | .group members, .map es =>
    if c.isExact then value
    else .map (es.foldl (fun acc (k, v) => putEntry (properName (members.map Prod.fst) k) v acc) [])
  | _, _ => value

def variableEntries (c : Choices) (vars : List (String × Variable)) :
    List Field → Except Error (List (Datum × Datum))
  | [] => .ok []
  | field :: rest => do
    let value? ← variableValue c vars field
    let others ← variableEntries c vars rest
    return value?.toList.map (fun value => (.text field.name, withProperNames c field.form value)) ++
      others

end Keyforge.Settings
