import ApiClient.Config.Basic
import ApiClient.Text.Pieces

namespace ApiClient.CommandLine

inductive Action where
  | parse
  | generate
deriving DecidableEq, Repr

inductive Flag where
  | verbose
  | nullable
  | json
  | help
deriving DecidableEq, Repr

inductive Setting where
  | spec
  | config
  | scope
  | enumStyle
  | apiPrefix
  | dataFields
  | requestLibPath
  | output
deriving DecidableEq, Repr

inductive Stop where
  | help
  | wrong
deriving DecidableEq, Repr

structure Given where
  flags : List Flag
  settings : List (Setting × String)

structure Request where
  action : Action
  isVerbose : Bool
  asJson : Bool
  spec : String
  config : Option String
  scope : Option String
  enumStyle : Option EnumStyle
  isNullable : Bool
  apiPrefix : Option String
  dataFields : Option (List String)
  requestLibPath : Option String
  output : String

def defaultOutput : String := "./src/services"

namespace Action

def ofName? : String → Option Action
  | "parse" => some parse
  | "generate" => some generate
  | _ => none

def flag? (a : Action) : String → Option Flag
  | "verbose" => some .verbose
  | "nullable" => some .nullable
  | "help" => some .help
  | "json" => if a = parse then some .json else none
  | _ => none

def shortFlag? : Char → Option Flag
  | 'v' => some .verbose
  | 'h' => some .help
  | _ => none

def setting? (a : Action) : String → Option Setting
  | "spec" => some .spec
  | "config" => some .config
  | "namespace" => some .scope
  | "enum-style" => some .enumStyle
  | "api-prefix" => some .apiPrefix
  | "data-fields" => some .dataFields
  | "request-lib-path" => some .requestLibPath
  | "output" => if a = generate then some .output else none
  | _ => none

def shortSetting? (a : Action) : Char → Option Setting
  | 's' => some .spec
  | 'c' => some .config
  | 'o' => if a = generate then some .output else none
  | _ => none

end Action

def Setting.accepts : Setting → String → Bool
  | spec, v => !v.isEmpty
  | config, v => !v.isEmpty
  | output, v => !v.isEmpty
  | enumStyle, v => (EnumStyle.ofText? v).isSome
  | _, _ => true

namespace Given

def none : Given :=
  ⟨[], []⟩

def flag (g : Given) (f : Flag) : Except Stop Given :=
  if f = .help then .error .help
  else if g.flags.contains f then .error .wrong
  else .ok { g with flags := f :: g.flags }

def set (g : Given) (s : Setting) (v : String) : Except Stop Given :=
  if !s.accepts v ∨ (s ≠ .dataFields ∧ (g.settings.lookup s).isSome) then .error .wrong
  else .ok { g with settings := (s, v) :: g.settings }

def dataFields (g : Given) : Option (List String) :=
  let parts := (g.settings.filter fun (s, _) => s == .dataFields).reverse
  if parts.isEmpty then Option.none
  else some (parts.flatMap fun (_, v) =>
    (v.toList.splitOnP (· == ',')).map String.ofList)

def request (g : Given) (a : Action) (isVerbose : Bool) : Except Stop Request :=
  match g.settings.lookup .spec with
  | Option.none => .error .wrong
  | some spec => .ok {
      action := a
      isVerbose := isVerbose || g.flags.contains .verbose
      asJson := g.flags.contains .json
      spec
      config := g.settings.lookup .config
      scope := g.settings.lookup .scope
      enumStyle := (g.settings.lookup .enumStyle).bind EnumStyle.ofText?
      isNullable := g.flags.contains .nullable
      apiPrefix := g.settings.lookup .apiPrefix
      dataFields := g.dataFields
      requestLibPath := g.settings.lookup .requestLibPath
      output := (g.settings.lookup .output).getD defaultOutput }

/-- The letters after one dash, up to an option whose value is the next argument. A value stands
right behind its option, with or without an equals sign. -/
def letters (a : Action) (g : Given) : List Char → Except Stop (Given × Option Setting)
  | [] => .ok (g, Option.none)
  | c :: rest =>
    match Action.shortFlag? c, a.shortSetting? c with
    | some f, _ => do letters a (← g.flag f) rest
    | Option.none, some s =>
      match rest with
      | [] => .ok (g, some s)
      | '=' :: v => (g.set s (String.ofList v)).map fun g => (g, Option.none)
      | v => (g.set s (String.ofList v)).map fun g => (g, Option.none)
    | Option.none, Option.none => .error .wrong

def named (a : Action) (g : Given) (cs : List Char) : Except Stop (Given × Option Setting) :=
  let name := String.ofList (cs.takeWhile (· != '='))
  let value := (cs.dropWhile (· != '=')).tail?.map String.ofList
  match a.flag? name, a.setting? name, value with
  | some f, _, Option.none => (g.flag f).map fun g => (g, Option.none)
  | Option.none, some s, Option.none => .ok (g, some s)
  | Option.none, some s, some v => (g.set s v).map fun g => (g, Option.none)
  | _, _, _ => .error .wrong

def argument (a : Action) (g : Given) (arg : String) : Except Stop (Given × Option Setting) :=
  match arg.toList with
  | '-' :: '-' :: name => g.named a name
  | '-' :: c :: rest => g.letters a (c :: rest)
  | _ => .error .wrong

/-- A single dash is a value and no option. -/
def isOption (arg : String) : Bool :=
  arg.startsWith "-" && arg != "-"

def arguments (a : Action) (g : Given) : List String → Except Stop Given
  | [] => .ok g
  | arg :: rest =>
    if arg = "--" then if rest.isEmpty then .ok g else .error .wrong
    else match g.argument a arg with
      | .error stop => .error stop
      | .ok (g, Option.none) => arguments a g rest
      | .ok (g, some s) =>
        match rest with
        | [] => .error .wrong
        | v :: rest =>
          if isOption v then .error .wrong
          else match g.set s v with
            | .error stop => .error stop
            | .ok g => arguments a g rest

end Given

def leadingLetters (isVerbose : Bool) : List Char → Except Stop Bool
  | [] => .ok isVerbose
  | 'v' :: rest => if isVerbose then .error .wrong else leadingLetters true rest
  | 'h' :: _ => .error .help
  | 'V' :: _ => .error .help
  | _ => .error .wrong

def Request.ofArguments (isVerbose : Bool) : List String → Except Stop Request
  | [] => .error .wrong
  | arg :: rest =>
    match Action.ofName? arg, arg.toList with
    | some a, _ => do (← Given.none.arguments a rest).request a isVerbose
    | none, ['-'] => .error .wrong
    | none, '-' :: '-' :: name =>
      if name = "verbose".toList ∧ !isVerbose then ofArguments true rest
      else if name = "help".toList ∨ name = "version".toList then .error .help
      else .error .wrong
    | none, '-' :: letters => do ofArguments (← leadingLetters isVerbose letters) rest
    | none, _ =>
      if arg = "help" ∧ (rest = [] ∨ rest = ["parse"] ∨ rest = ["generate"] ∨ rest = ["help"]) then
        .error .help
      else .error .wrong

end ApiClient.CommandLine
