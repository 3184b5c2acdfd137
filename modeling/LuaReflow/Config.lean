/-!
# Format configuration

The output style is fixed; the only setting is the *snippet width*, the largest number of
source characters a lexical error quotes. It is 50 unless set, and it must be positive.

Settings come as a table of named values of any kind. Unknown names are ignored. The
snippet width is compared with one: an integer below one is refused as not positive, a truth
value counts as the integer 0 or 1 (and is kept as given), and a value of any other kind
cannot be compared with an integer at all.

## Main definitions

* `FormatConfig`: a positive snippet width.
* `SettingValue`, `ConfigError`: a setting as given, and why one is refused.
* `FormatConfig.checkWidth`, `FormatConfig.widthOfSettings`: the checks.
* `FormatConfig.ofSetting`: the configuration of an accepted setting.
-/

namespace LuaReflow

/-- The configuration of diagnostics: how many source characters an error quotes. -/
structure FormatConfig where
  /-- The largest number of source characters a lexical error quotes. -/
  snippetWidth : Nat := 50
  /-- The width is positive. -/
  width_pos : 0 < snippetWidth := by decide
  deriving Repr

/-- A setting's value, as a table of settings gives it. -/
inductive SettingValue where
  | int (n : Int)
  | bool (b : Bool)
  | text (s : String)
  | null
  | array
  | object
  deriving DecidableEq, Repr

/-- Why a setting is refused. -/
inductive ConfigError where
  /-- The width, shown as it was given, is below one. -/
  | notPositive (shown : String)
  /-- A value of the named kind cannot be compared with an integer. -/
  | notComparable (kind : String)
  deriving DecidableEq, Repr

/-- The text of a refusal. -/
def ConfigError.message : ConfigError → String
  | .notPositive shown => "snippet_width must be positive, got " ++ shown
  | .notComparable kind => "'<' not supported between instances of '" ++ kind ++ "' and 'int'"

namespace FormatConfig

/-- The configuration of a width, when it is positive. -/
def ofWidth (n : Int) : Except ConfigError FormatConfig :=
  if h : 1 ≤ n then .ok { snippetWidth := n.toNat, width_pos := by omega }
  else .error (.notPositive (toString n))

/-- The integer a setting counts as when compared with one: truth values count as 1 and 0,
and values of other kinds cannot be compared. -/
def asInt : SettingValue → Except ConfigError Int
  | .int n => .ok n
  | .bool b => .ok (if b then 1 else 0)
  | .text _ => .error (.notComparable "str")
  | .null => .error (.notComparable "NoneType")
  | .array => .error (.notComparable "list")
  | .object => .error (.notComparable "dict")

/-- How a comparable setting is shown in a refusal: integers in decimal, truth values
capitalised. -/
def shown : SettingValue → String
  | .int n => toString n
  | .bool b => if b then "True" else "False"
  | _ => ""

/-- The snippet width as given, when it is accepted. -/
def checkWidth (v : SettingValue) : Except ConfigError SettingValue :=
  match asInt v with
  | .error e => .error e
  | .ok n => if 1 ≤ n then .ok v else .error (.notPositive (shown v))

/-- The configuration of a snippet-width setting, when it is accepted. -/
def ofSetting (v : SettingValue) : Except ConfigError FormatConfig :=
  match asInt v with
  | .error e => .error e
  | .ok n =>
    if h : 1 ≤ n then .ok { snippetWidth := n.toNat, width_pos := by omega }
    else .error (.notPositive (shown v))

/-- The accepted snippet width of a table of settings; unknown names are ignored and a
missing width is 50. The last entry of a name counts. -/
def widthOfSettings (settings : List (String × SettingValue)) : Except ConfigError SettingValue :=
  match (settings.reverse.find? (·.1 == "snippet_width")) with
  | some (_, v) => checkWidth v
  | none => .ok (.int 50)

example : (ofWidth 0).toOption.isNone := by decide

end FormatConfig

end LuaReflow
