import Mathlib.Data.Nat.Notation

/-!
# Texts with place markers

`QString::arg`, with which the client builds the texts of its status line.
-/

namespace Multilife.Client

def digit (c : Char) : Option ℕ := if c.isDigit then some (c.toNat - 48) else none

/-- A number of one or two digits, and how many. -/
def number : List Char → Option (ℕ × ℕ)
  | [] => none
  | c :: cs => (digit c).map fun n =>
    match cs.head?.bind digit with
    | some m => (10 * n + m, 2)
    | none => (n, 1)

/-- The number of a place marker and how long it is, after its `%`. -/
def placeMarker : List Char → Option (ℕ × ℕ)
  | 'L' :: cs => (number cs).map fun found => (found.1, found.2 + 1)
  | cs => number cs

/-- The place marker at the front of a text. -/
def markerAt (c : Char) (cs : List Char) : Option (ℕ × ℕ) := if c = '%' then placeMarker cs else none

/-- The lowest number of a place marker. -/
def lowestMarker : List Char → Option ℕ
  | [] => none
  | c :: cs =>
    match markerAt c cs, lowestMarker cs with
    | some (n, _), some m => some (min n m)
    | some (n, _), none => some n
    | none, rest => rest

/-- Every occurrence of the place marker is replaced; the first characters are skipped. -/
def replaceMarker (n : ℕ) (a : List Char) : ℕ → List Char → List Char
  | _, [] => []
  | skip + 1, _ :: cs => replaceMarker n a skip cs
  | 0, c :: cs =>
    match markerAt c cs with
    | some (m, length) =>
      if m = n then a ++ replaceMarker n a length cs else c :: replaceMarker n a 0 cs
    | none => c :: replaceMarker n a 0 cs

/-- `QString::arg`: the lowest place marker is replaced. -/
def arg (text a : String) : String :=
  match lowestMarker text.toList with
  | none => text
  | some n => String.ofList (replaceMarker n a.toList 0 text.toList)

example : ["localhost", "4000"].foldl arg "Connecting to %1:%2 ..." =
    "Connecting to localhost:4000 ..." := by decide

end Multilife.Client
