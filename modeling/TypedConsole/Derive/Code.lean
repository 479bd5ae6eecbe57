import TypedConsole.Derive.Plan

/-!
# TypedConsole.Derive.Code

The code that a plan stands for: the implementation of a command by its grammar and by how it
takes its arguments, and that of a compound by its slots and by how it is assembled. Every setting
of a plan stands in the code as it stood in the source.
-/

namespace TypedConsole.Derive

open Source

/-! ## pieces of code -/

/-- The tree of a word whose characters are given last first, if it has any. -/
def wordTree (reversed : List Char) : Tokens :=
  match reversed.reverse with
  | [] => []
  | c :: r =>
    [if c.isDigit then .literal (String.ofList (c :: r)) else .name (String.ofList (c :: r))]

/-- The trees of words and punctuation, where `word` holds the characters of a word that has
begun, last first. -/
def codeFrom (word : List Char) : List Char → Tokens
  | [] => wordTree word
  | c :: r =>
    if c.isAlphanum || c == '_' then codeFrom (c :: word) r
    else if c == ' ' then wordTree word ++ codeFrom [] r
    else wordTree word ++ .punctuation c false :: codeFrom [] r

/-- The trees of a text that consists of words and punctuation, without groups. -/
def code (text : String) : Tokens := codeFrom [] text.toList

/-- Code in parentheses. -/
def parenthesised (content : Tokens) : Tokens := [.group .parentheses content]

/-- Code in brackets. -/
def bracketed (content : Tokens) : Tokens := [.group .brackets content]

/-- Code in braces. -/
def braced (content : Tokens) : Tokens := [.group .braces content]

/-- The call of a method. -/
def call (method : String) (arguments : Tokens) : Tokens :=
  code ("." ++ method) ++ parenthesised arguments

/-- The head of a function with its parameters and result, before its body. -/
def function (name : String) (parameters result : Tokens) : Tokens :=
  code ("fn " ++ name) ++ parenthesised parameters ++ code "->" ++ result

/-- The parameter that stands for the registry of parsers. -/
def registryParameter : Tokens := code "registry: &::devcon::ParserRegistry,"

/-- The piece of code that takes the values of all fields from where they are. -/
def fieldValue (field : String) (type : Snippet) (source : String) (index : Tokens) : Tokens :=
  [.name field] ++ code (": " ++ source ++ ".take::<") ++ type.tokens ++ code ">" ++
    parenthesised index ++ code "?,"

/-! ## commands -/

section
variable {ε : Type} (lang : Language ε)

namespace ParameterPlan

/-- The constructor of the parameter, by its role. -/
def constructorCode (p : ParameterPlan) : Tokens :=
  let name := [lang.literal p.name]
  match p.role with
  | .positional => code "positional" ++ parenthesised name
  | .switch short => code "switch" ++ parenthesised short.tokens ++ call "long" name
  | .requiredSwitch short =>
    code "required_switch" ++ parenthesised short.tokens ++ call "long" name

/-- What is said of the parameter's requirement. Switches are optional from the outset. -/
def requirementCode (p : ParameterPlan) : Tokens :=
  match p.requirement, p.role with
  | .optional, .positional => call "optional" []
  | .required, _ | .optional, _ => []
  | .default value, _ => call "default_value" value.tokens
  | .defaultText text, _ => call "default_raw" text.tokens

/-- The settings that only modify the parameter, in the order in which they are applied. -/
def modifiers (p : ParameterPlan) : List (String × Option Snippet) :=
  [("meta", p.valueName), ("flag", p.flag), ("min", p.min), ("max", p.max),
   ("description", p.description), ("parser", p.parser)]

/-- The call that applies a modifier. -/
def modifierCode : String × Option Snippet → Tokens
  | (method, some value) => call method value.tokens
  | (_, none) => []

/-- The parameter as an expression. -/
def toCode (p : ParameterPlan) : Tokens :=
  code "::devcon::Parameter::<" ++ p.type.tokens ++ code ">::" ++ p.constructorCode lang ++
    p.requirementCode ++ p.modifiers.flatMap modifierCode

/-- How the value of the parameter is taken from the arguments. -/
def takeCode (p : ParameterPlan) (index : Nat) : Tokens :=
  fieldValue p.field p.type "arguments" [.literal (toString index ++ "usize")]

end ParameterPlan

namespace CommandPlan

/-- The body of the function that builds the grammar. -/
def grammarCode (c : CommandPlan) : Tokens :=
  code "::devcon::GrammarBuilder::new" ++ parenthesised [] ++
    c.parameters.flatMap (fun p => call "add" (p.toCode lang)) ++ call "build" (code "registry")

/-- The body of the function that takes the arguments. -/
def argumentsCode (c : CommandPlan) : Tokens :=
  code "::std::result::Result::Ok" ++ parenthesised (code "Self" ++
    braced (c.parameters.zipIdx.flatMap fun (p, index) => p.takeCode index))

/-- The implementation of the command. -/
def toCode (c : CommandPlan) : Tokens :=
  code "impl ::devcon::Command for" ++ [.name c.name] ++ braced (
    function "grammar" registryParameter
      (code "::std::result::Result<::devcon::Grammar, ::devcon::ConfigError>") ++
    braced (c.grammarCode lang) ++
    code "#" ++ bracketed (code "allow" ++ parenthesised (code "unused_mut, unused_variables")) ++
    function "from_arguments" (code "mut arguments: ::devcon::Arguments,")
      (code "::std::result::Result<Self, ::devcon::ArgumentError>") ++
    braced c.argumentsCode)

end CommandPlan

/-! ## compounds -/

namespace SlotPlan

/-- The slot as an expression. -/
def toCode (s : SlotPlan) : Tokens :=
  match s.default with
  | some value =>
    code "::devcon::Slot::with_default::<" ++ s.type.tokens ++ code ">" ++
      parenthesised (code "registry," ++ value.tokens) ++ code "?"
  | none =>
    code "::devcon::Slot::required::<" ++ s.type.tokens ++ code ">" ++
      parenthesised (code "registry") ++ code "?"

/-- How the value of the slot is taken from the elements. -/
def takeCode (s : SlotPlan) : Tokens := fieldValue s.field s.type "elements" []

end SlotPlan

namespace CompoundPlan

/-- The value that is assembled from the elements. -/
def valueCode (c : CompoundPlan) : Tokens :=
  code "Self" ++ braced (c.slots.flatMap SlotPlan.takeCode)

/-- The body of the function that assembles a value, and tests it if there is a condition. -/
def assembleCode (c : CompoundPlan) : Tokens :=
  match c.validate with
  | some condition =>
    code "let value =" ++ c.valueCode ++ code "; if" ++ condition.tokens ++
      parenthesised (code "&value") ++
      braced (code "::std::option::Option::Some" ++ parenthesised (code "value")) ++
      code "else" ++ braced (code "::std::option::Option::None")
  | none => code "::std::option::Option::Some" ++ parenthesised c.valueCode

/-- The fields of the compound, separated by spaces, as its literals are described. -/
def template (c : CompoundPlan) : String := " ".intercalate (c.slots.map (·.field))

/-- The body of the function that describes the literals. -/
def formatCode (c : CompoundPlan) : Tokens :=
  code "let" ++ parenthesised (code "open, close") ++
    code "= <Self as ::devcon::Compound>::grouping" ++ parenthesised [] ++
    bracketed (code "0") ++ code "; ::std::format!" ++
    parenthesised ([lang.literal "\x7b\x7d\x7b\x7d\x7b\x7d"] ++ code ", open," ++
      [lang.literal c.template] ++ code ", close")

/-- The slots, separated by commas. -/
def slotsCode (c : CompoundPlan) : Tokens := (code ",").intercalate (c.slots.map SlotPlan.toCode)

/-- The implementation of the compound. -/
def toCode (c : CompoundPlan) : Tokens :=
  code "impl ::devcon::Compound for" ++ [.name c.name] ++ braced (
    function "slots" registryParameter
      (code "::std::result::Result<::std::vec::Vec<::devcon::Slot>, ::devcon::RegistryError>") ++
    braced (code "::std::result::Result::Ok" ++
      parenthesised (code "::std::vec!" ++ bracketed c.slotsCode)) ++
    function "assemble" (code "elements: &mut ::devcon::Elements")
      (code "::std::option::Option<Self>") ++
    braced c.assembleCode ++
    function "format" (code "_slots: &" ++ bracketed (code "::devcon::Slot"))
      (code "::std::string::String") ++
    braced (c.formatCode lang)) ++
  code "impl ::devcon::Parsable for" ++ [.name c.name] ++ braced (
    function "create_parser" registryParameter
      (code "::std::result::Result<::std::sync::Arc<dyn ::devcon::ParameterParser<Self>>," ++
        code "::devcon::RegistryError,>") ++
    braced (code "::devcon::compound_parser::<Self>" ++ parenthesised (code "registry")))

end CompoundPlan

end

end TypedConsole.Derive
