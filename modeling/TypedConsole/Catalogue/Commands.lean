import TypedConsole.Catalogue.Parsers
import TypedConsole.Command

/-!
# TypedConsole.Catalogue.Commands

A catalogue of declared commands: with and without fields, with all kinds of parameters, one whose
names collide and one whose type has no parser.
-/

namespace TypedConsole.Catalogue

open Parameter

/-- A field. -/
def field (name : String) (parameter : Parameter) : CommandField := ⟨name, parameter⟩

/-- A greeting. -/
def greet : Command where
  fields := [
    field "hello" ((positional .string "hello").withDescription "Who to greet."),
    field "count" (positional (.integer .i32) "5").optional,
    field "verbose" ((switch .bool 'v').withLong "verbose")]

/-- The creation of an entity. -/
def spawn : Command where
  fields := [
    field "kind" ((positional .string "kind").withDescription "The entity kind."),
    field "position"
      ((positional (type "Vector") "position").withDescription "Where to spawn it."),
    field "colour"
      ((((switch (type "Colour") 'c').withLong "tint").withDefaultText "[1 1 1]").withMetavar
        "RGB"),
    field "tags"
      ((((switch (.set .hashed .string) 't').withLong "tags").withMax 3).withDescription
        "Tags to attach."),
    field "properties"
      ((requiredSwitch (.map .ordered .string (.integer .i64)) 'p').withLong "properties"),
    field "physics"
      ((((switch .bool 'f').withLong "physics").withDefault (.bool true)).withFlagMode false),
    field "name" ((switch (.optional .string) 'n').withLong "name")]

/-- A sum. -/
def sum : Command where
  fields := [
    field "items"
      (((positional (.sequence .vector (.integer .i64)) "items").withMin 1).withDescription
        "The values to sum."),
    field "verbose"
      (((switch .bool 'v').withLong "verbose").withDescription "Show the items as well.")]

/-- A colour for a layer. -/
def paint : Command where
  fields := [
    field "colour"
      ((positional (type "Colour") "colour").withDescription
        "The colour, as [r g b] or [r g b a]."),
    field "layer"
      ((((switch .string 'n').withLong "layer name").withDefaultText "base").withMetavar "NAME")]

/-- A command with a parser of its own for one parameter. -/
def fox : Command where
  fields := [
    field "quick" (positional (.integer .usize) "quick"),
    field "brown" ((positional (.integer .usize) "BROWN").withDefault (.integer 3)),
    field "fox_name" ((requiredSwitch .string 'f').withLong "fox-name"),
    field "jumps" (((switch (.sequence .vector byte) 'j').withLong "jumps").withMax 2),
    field "hex_byte"
      (((((switch byte 'x').withLong "hex-byte").withDefault (.integer 255)).withDescription
        "A hexadecimal byte.").withParser (.custom hex))]

/-- A command without fields. -/
def quit : Command := ⟨[]⟩

/-- A command with one short name for two parameters. -/
def broken : Command where
  fields := [
    field "left" ((switch byte 'a').withLong "left"),
    field "right" ((switch byte 'a').withLong "right")]

/-- A command with a parameter that has no parser. -/
def unresolved : Command where
  fields := [field "value" (positional (type "Opaque") "value")]

/-- A command of the catalogue. -/
def commandNamed : String → Option Command
  | "Greet" => some greet
  | "Spawn" => some spawn
  | "Sum" => some sum
  | "Paint" => some paint
  | "Fox" => some fox
  | "Quit" => some quit
  | "Broken" => some broken
  | "Unresolved" => some unresolved
  | _ => none

end TypedConsole.Catalogue
