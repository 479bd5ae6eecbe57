import TypedConsole.Declaration
import TypedConsole.Text.Quoted

/-!
# TypedConsole.Registry

The registry of parsers: at most one parser for each type, and the special characters. Parsers
come into it by registration or by resolution (`TypedConsole.Registry.Resolve`), and none ever
leaves it; a parser that was handed out stays as it is when another is registered in its place.
-/

namespace TypedConsole

/-- Parsers by type, special characters, and the declared types that parsers can be made for. -/
structure Registry where
  types : Declarations
  parsers : List (Ty × Parser) := []
  special : SpecialSet := .builtIn

namespace Registry

/-- The registry with no parsers. -/
def empty (types : Declarations) : Registry := { types }

/-- The parser stored for exactly this type. -/
def lookup (r : Registry) (t : Ty) : Option Parser := (r.parsers.find? (·.1 = t)).map (·.2)

/-- Store a parser for the type, in place of an earlier one. -/
def register (r : Registry) (t : Ty) (p : Parser) : Registry :=
  { r with parsers := (t, p) :: r.parsers.filter (·.1 ≠ t) }

/-- Make characters special. -/
def addSpecial (r : Registry) (characters : List Char) : Registry :=
  { r with special := r.special.add characters }

/-- The character is special. -/
def isSpecial (r : Registry) (c : Char) : Bool := r.special.contains c

/-- Read a literal under the special characters of the registry. -/
def read (r : Registry) (p : Parser) : Reader Value := p.read r.special

/-- The registry in one line: how many parsers it holds and which characters are special. -/
def summary (r : Registry) : String :=
  let special := commaSeparated (r.special.toList.map Text.quotedChar)
  s!"ParserRegistry \x7b parsers: {r.parsers.length}, special_chars: [{special}] \x7d"

/-! ## storing -/

theorem lookup_register_self (r : Registry) (t : Ty) (p : Parser) :
    (r.register t p).lookup t = some p := by
  simp [lookup, register]

theorem lookup_register_of_ne (r : Registry) {t u : Ty} (p : Parser) (h : u ≠ t) :
    (r.register t p).lookup u = r.lookup u := by
  simp only [lookup, register, List.find?_cons]
  have : decide (t = u) = false := by simpa using fun e => h e.symm
  simp only [this, List.find?_filter]
  congr 2
  funext e
  by_cases he : e.1 = u <;> simp [he, h]

end Registry

end TypedConsole
