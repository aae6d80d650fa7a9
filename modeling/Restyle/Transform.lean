import Restyle.Run
import Restyle.Stylesheet.Assembly
import Restyle.Document.OfMarkup
import Restyle.Parameters
import Restyle.Result.Written

/-!
# Restyle.Transform

From a stylesheet, a document and parameters to a result.

* `Stylesheet.ofText`, `Stylesheet.ofBytes` — stylesheets, to be used any number of times;
* `Stylesheet.events` — the events of the result for a document;
* `Stylesheet.transform` — the result as text;
* `Settings.ofJson` — settings.
-/

namespace Restyle

namespace Stylesheet

/-- The stylesheet in bytes, which must be UTF-8. -/
def ofBytes (bytes : List UInt8) : Except Failure Stylesheet := do
  let text ← (Text.decodeUtf8 bytes).mapError fun error =>
    Failure.stylesheet (.notUtf8 error) ⟨0, 0⟩
  Stylesheet.ofText text

/-- The events of the result for a document. -/
def events (stylesheet : Stylesheet) (settings : Settings) (params : Parameters)
    (source : String) : Except Failure (List Event) :=
  match Document.ofText? source with
  | none => .error .documentMarkup
  | some document => Job.events ⟨stylesheet, document, settings⟩ params.scope

/-- The result for a document as text. -/
def transform (stylesheet : Stylesheet) (settings : Settings) (params : Parameters)
    (source : String) : Except Failure String := do
  let events ← stylesheet.events settings params source
  (Written.result stylesheet.output events).mapError .events

/-- The result for a document in bytes, which must be UTF-8, under the standard settings. -/
def transformBytes (stylesheet : Stylesheet) (params : Parameters) (bytes : List UInt8) :
    Except Failure String := do
  let source ← (Text.decodeUtf8 bytes).mapError Failure.documentEncoding
  stylesheet.transform .standard params source

end Stylesheet

namespace Settings

/-- The depth limit in a JSON value. -/
def depthOfJson : Option Json → Option Nat
  | none => some Settings.standard.maxDepth
  | some (.integer n) => if 0 ≤ n then some n.toNat else none
  | some _ => none

/-- The strictness in a JSON value. -/
def strictOfJson : Option Json → Option Bool
  | none => some Settings.standard.strict
  | some (.boolean b) => some b
  | some _ => none

/-- The settings in JSON values for the depth limit and the strictness; what is not given is as in
the standard settings. -/
def ofParts (depth strict : Option Json) : Option Settings := do
  return ⟨← depthOfJson depth, ← strictOfJson strict⟩

/-- The settings in a JSON object, by name, or in a JSON array, by position. -/
def ofJson : Json → Option Settings
  | .object fields => ofParts (fields.lookup "max_depth") (fields.lookup "strict")
  | .array [] => ofParts none none
  | .array [depth] => ofParts (some depth) none
  | .array [depth, strict] => ofParts (some depth) (some strict)
  | _ => none

/-- The stack, in bytes, of a worker that may open this many levels: 64 KiB for each, at least
2 MiB, as far as 64 bits go. -/
def stackSize (maxDepth : Nat) : Nat :=
  max (min (maxDepth * (64 * 1024)) (Nat.pow 2 64 - 1)) (2 * 1024 * 1024)

end Settings

end Restyle
