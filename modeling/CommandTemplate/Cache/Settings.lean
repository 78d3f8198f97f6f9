import CommandTemplate.Cache.Basic
import CommandTemplate.Document.Strict

/-!
# Settings of a cache

The settings are JSON: an object with at most the field `capacity`, or an array with at most that
value.  The capacity is null or a positive integer of 64 bits.  Anything else is refused, a repeated
or unknown field included.
-/

namespace CommandTemplate

structure CacheSettings where
  capacity : Option Nat
deriving DecidableEq, Repr

namespace CacheSettings

def capacity? : Value → Option (Option Nat)
  | .null => some none
  | .int i => if 0 < i then some (some i.toNat) else none
  | _ => none

/-- The settings that the members of an object stand for. -/
def ofMembers? : List (Text × Value) → Option CacheSettings
  | [] => some ⟨none⟩
  | [(name, value)] =>
    if name = "capacity".toList then (capacity? value).map CacheSettings.mk else none
  | _ => none

/-- Reads the members of an object that fills the rest of a text, whose opening brace is read
already. -/
def readMembers? (rest : Text) : Option (List (Text × Value)) :=
  match Strict.skip rest with
  | '}' :: after => if Strict.skip after = [] then some [] else none
  | first =>
    match Strict.readMembers (Strict.maxDepth - 1) [] (Strict.budget first) first with
    | .ok (members, after) => if Strict.skip after = [] then some members else none
    | .error _ => none

def read? (text : Text) : Option CacheSettings :=
  match Strict.skip text with
  | '{' :: rest => (readMembers? rest).bind ofMembers?
  | _ =>
    match Strict.readText text with
    | .ok (.array []) => some ⟨none⟩
    | .ok (.array [value]) => (capacity? value).map CacheSettings.mk
    | _ => none

end CacheSettings

def Cache.ofSettings (settings : CacheSettings) : Cache :=
  ofCapacity settings.capacity

end CommandTemplate
