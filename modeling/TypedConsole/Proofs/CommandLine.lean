import TypedConsole.Interpretation
import TypedConsole.Proofs.Spans

/-!
# TypedConsole.Proofs.CommandLine

Which lines a grammar accepts, said without the reader of lines.

A line is a sequence of items with blanks between them.  Up to the first mark `--` an item is

1. a dash with short names: one or more flags, or any number of flags and then one switch with its
   value right behind it or behind blanks;
2. two dashes with the long name of a flag;
3. two dashes with the long name of a switch, and its value behind an equals sign or behind blanks;
4. the mark `--` itself;
5. a value of the next positional that does not look like an option.

Behind the mark every item is a value of the next positional.  A value is what the parser of its
parameter claims when it reads the rest of the line, and it ends at a blank or with the line.
-/

namespace TypedConsole

/-- A parameter together with the value that a line gives it. -/
structure Supply where
  parameter : Descriptor
  value : Value

namespace Grammar

/-! ## values -/

/-- The text `s` starts with the value `v` of the parameter `d`, and `t` follows it. -/
structure IsValue (special : SpecialSet) (d : Descriptor) (v : Value) (s t : List Char) : Prop where
  /-- A value starts with a character other than a blank. -/
  starts : Text.atBoundary s = false
  /-- It is exactly what the parser of the parameter claims. -/
  read : d.parser.read special s = (some v, t)
  /-- A blank or the end of the line follows. -/
  ends : Text.atBoundary t = true
  /-- Its number of elements is within the bounds of the parameter. -/
  permitted : ∀ n, countOf d v = some n → d.arity.permits n = true

/-! ## options -/

/-- The character is the short name of the switch or flag. -/
def HasShort (g : Grammar) (c : Char) (d : Descriptor) : Prop :=
  d ∈ g.switches ∧ d.short = some c

/-- The text is the long name of the switch or flag. -/
def HasLong (g : Grammar) (long : List Char) (d : Descriptor) : Prop :=
  d ∈ g.switches ∧ d.long.map String.toList = some long

/-- The supply of a flag. -/
def flagged (d : Descriptor) : Supply := ⟨d, .bool true⟩

/-- `Cluster g special os s t`: the text `s` starts with merged short names that supply `os`, and
`t` follows them. -/
inductive Cluster (g : Grammar) (special : SpecialSet) :
    List Supply → List Char → List Char → Prop
  /-- The last short name is that of a flag. -/
  | flag (hc : g.HasShort c d) (hd : d.kind = .flag) (ht : Text.atBoundary t = true) :
      Cluster g special [flagged d] (c :: t) t
  /-- The short name of a flag stands before others. -/
  | merged (hc : g.HasShort c d) (hd : d.kind = .flag) (rest : Cluster g special os s t) :
      Cluster g special (flagged d :: os) (c :: s) t
  /-- The last short name is that of a switch, and its value is attached. -/
  | attached (hc : g.HasShort c d) (hd : d.kind = .switch) (hv : IsValue special d v s t) :
      Cluster g special [⟨d, v⟩] (c :: s) t
  /-- The last short name is that of a switch, and its value stands behind blanks. -/
  | spaced (hc : g.HasShort c d) (hd : d.kind = .switch) (hb : Text.Blank b) (hne : b ≠ [])
      (hv : IsValue special d v s t) : Cluster g special [⟨d, v⟩] (c :: (b ++ s)) t

/-- A text looks like an option: two dashes, or a dash with a letter or a short name behind it. -/
def LooksLikeOption (g : Grammar) (s : List Char) : Prop :=
  doubleDash <+: s ∨
    ∃ c r, s = dash :: c :: r ∧ (Text.isAlphabetic c = true ∨ ∃ d, g.HasShort c d)

/-! ## items and lines -/

/-- An item of a line, by what it supplies. -/
inductive Item
  /-- An option, or several merged ones. -/
  | options (supplies : List Supply)
  /-- The mark behind which there are no options. -/
  | mark
  | positional (supply : Supply)

namespace Item

/-- What the item supplies. -/
def supplies : Item → List Supply
  | options os => os
  | mark => []
  | positional o => [o]

/-- The parameter of a positional value. -/
def positional? : Item → Option Descriptor
  | positional o => some o.parameter
  | _ => none

/-- Whether the item is the mark. -/
def isMark : Item → Bool
  | mark => true
  | _ => false

end Item

/-- `Spelled g special enabled i s t`: the text `s` starts with the item `i`, and `t` follows it.
Options are recognised if `enabled`. -/
inductive Spelled (g : Grammar) (special : SpecialSet) :
    Bool → Item → List Char → List Char → Prop
  | cluster (h : Cluster g special os s t) : Spelled g special true (.options os) (dash :: s) t
  | longFlag (hl : g.HasLong long d) (hd : d.kind = .flag) (ht : Text.atBoundary t = true) :
      Spelled g special true (.options [flagged d]) (doubleDash ++ long ++ t) t
  | longAttached (hl : g.HasLong long d) (hd : d.kind = .switch) (hv : IsValue special d v s t) :
      Spelled g special true (.options [⟨d, v⟩]) (doubleDash ++ long ++ assignment :: s) t
  | longSpaced (hl : g.HasLong long d) (hd : d.kind = .switch) (hb : Text.Blank b) (hne : b ≠ [])
      (hv : IsValue special d v s t) :
      Spelled g special true (.options [⟨d, v⟩]) (doubleDash ++ long ++ (b ++ s)) t
  | mark (ht : Text.atBoundary t = true) : Spelled g special true .mark (doubleDash ++ t) t
  | value (hv : IsValue special d v s t) (ho : ¬g.LooksLikeOption s) :
      Spelled g special true (.positional ⟨d, v⟩) s t
  | valueBehindMark (hv : IsValue special d v s t) :
      Spelled g special false (.positional ⟨d, v⟩) s t

/-- `Line g special enabled is s`: the text `s` consists of the items `is` with blanks between
them, and perhaps at its ends.  An item ends where a blank or nothing follows, so there is at
least one blank between two of them. -/
inductive Line (g : Grammar) (special : SpecialSet) : Bool → List Item → List Char → Prop
  | done (hb : Text.Blank b) : Line g special enabled [] b
  | item (hb : Text.Blank b) (hi : Spelled g special enabled i s t)
      (rest : Line g special (enabled && !i.isMark) is t) :
      Line g special enabled (i :: is) (b ++ s)

/-! ## acceptance -/

/-- The line consists of these items, and they supply the parameters as the grammar asks. -/
structure Accepts (g : Grammar) (special : SpecialSet) (is : List Item) (text : List Char) :
    Prop where
  line : Line g special true is text
  /-- The positional values are those of the first positionals, in order. -/
  inOrder : is.filterMap Item.positional? <+: g.positionals
  /-- No parameter is supplied twice. -/
  once : ((is.flatMap Item.supplies).map (·.parameter.index)).Nodup
  /-- Every required parameter is supplied. -/
  complete : ∀ d ∈ g.parameters, d.required = true →
    ∃ o ∈ is.flatMap Item.supplies, o.parameter = d

/-- The value of a parameter: what is supplied for it, or what it falls back to. -/
def settled (special : SpecialSet) (os : List Supply) (d : Descriptor) : TypedValue :=
  match os.find? (·.parameter.index = d.index) with
  | some o => ⟨d.type, o.value⟩
  | none => ⟨d.type, fallbackValue special d (d.fallback.getD .zero)⟩

/-- The arguments of a line with these items: one for each parameter. -/
def argumentsOf (g : Grammar) (special : SpecialSet) (is : List Item) : Arguments :=
  ⟨g.parameters.map fun d => some (settled special (is.flatMap Item.supplies) d)⟩

end Grammar

end TypedConsole
