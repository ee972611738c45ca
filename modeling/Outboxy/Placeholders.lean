import Outboxy.Schema
import Outboxy.Library.SqlTokens

/-!
# The placeholders of the two databases

PostgreSQL numbers its placeholders from 1, and a number may stand in a text
more than once.  MySQL has `?`, which takes the next parameter.
-/

namespace Outboxy.Adapter

open Sql (Marker Placeholder Token Scans)

variable (a : Adapter)

/-- What a text has for the parameter at a position. -/
def marker (i : Nat) : Marker :=
  match a with
  | .postgres => .numbered (i + 1)
  | .mysql => .next

def placeholder (i : Nat) : Placeholder :=
  match a with
  | .postgres => .numbered (i + 1)
  | .mysql => .positional i

variable {a} {sql : String} {ts : List (Token Nat)}

theorem parameter_placeholder (i : Nat) : (a.placeholder i).parameter = some i := by
  cases a <;> rfl

/-- The text is read as `ts` says; on MySQL the positions must be in order. -/
theorem read_of_scans (h : Scans sql.toList (ts.map (Token.map a.marker)))
    (horder : a = .mysql → ∃ m, Sql.values ts = List.range m) :
    Sql.read sql = ts.map (Token.map a.placeholder) := by
  cases a with
  | postgres => exact Sql.read_of_scans_numbered h
  | mysql =>
    obtain ⟨m, hm⟩ := horder rfl
    exact Sql.read_of_scans_positional h hm

end Outboxy.Adapter
