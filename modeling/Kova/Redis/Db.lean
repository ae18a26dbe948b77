import Mathlib.Data.List.Basic

/-!
# A key-value store with expiry

The commands of Redis that the services use, at a given moment in nanoseconds. A key that has
expired is not there: every command first drops what has expired.
-/

namespace Redis

structure Entry where
  value : String
  /-- The moment the key disappears at, if it has one. -/
  expires : Option Nat
  deriving DecidableEq

abbrev Db := List (String × Entry)

inductive Cmd where
  | get (key : String)
  | set_ex (key value : String) (seconds : Nat)
  | get_del (key : String)
  | incr (key : String) (delta : Int)
  | expire (key : String) (seconds : Nat)

/-- What each command answers when it does not fail. -/
def Cmd.Res : Cmd → Type
  | .get _ | .get_del _ => Option String
  | .set_ex .. | .expire .. => Unit
  | .incr .. => Option Int

namespace Db

/-- What is still there at a moment. -/
def live (db : Db) (now : Nat) : Db := db.filter fun p => p.2.expires.all (now < ·)

def lookup (db : Db) (key : String) : Option Entry := (db.find? (·.1 == key)).map (·.2)

def erase (db : Db) (key : String) : Db := db.filter (·.1 != key)

def put (db : Db) (key : String) (entry : Entry) : Db := (key, entry) :: db.erase key

end Db

/-- The number that decimal digits spell. -/
def natural (digits : List Char) : Option Nat :=
  if digits ≠ [] ∧ digits.all Char.isDigit then some (Nat.ofDigitChars 10 digits 0) else none

/-- The integer that a text spells: digits, behind a minus sign or not. -/
def integer (s : String) : Option Int :=
  if s.toList.head? = some '-' then (natural (s.toList.drop 1)).map fun n => -(n : Int)
  else (natural s.toList).map fun n => (n : Int)

/-- One command. INCR answers `none` for a value that is no integer. -/
def run (now : Nat) (db : Db) : (cmd : Cmd) → cmd.Res × Db
  | .get key => (((db.live now).lookup key).map (·.value), db.live now)
  | .set_ex key value seconds =>
    ((), (db.live now).put key ⟨value, some (now + seconds * 1000000000)⟩)
  | .get_del key => (((db.live now).lookup key).map (·.value), (db.live now).erase key)
  | .incr key delta =>
    match (db.live now).lookup key with
    | none => (some delta, (db.live now).put key ⟨toString delta, none⟩)
    | some entry =>
      match integer entry.value with
      | none => (none, db.live now)
      | some n => (some (n + delta), (db.live now).put key ⟨toString (n + delta), entry.expires⟩)
  | .expire key seconds =>
    match (db.live now).lookup key with
    | none => ((), db.live now)
    | some entry =>
      ((), (db.live now).put key { entry with expires := some (now + seconds * 1000000000) })

end Redis
