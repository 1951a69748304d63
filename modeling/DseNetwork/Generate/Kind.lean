import Mathlib.Data.List.Basic

/-
The documents that the generators read and write, after the `kind` package.

An annotation map is the list of its entries in the order of assignment; every key is
assigned once.  Fields that no generator sets or reads are left out.
-/

namespace DseNetwork
namespace Kind

/-- What the generators store in an `interface{}`. -/
inductive Value
  | int (value : Int)
  | string (value : String)
  deriving DecidableEq

abbrev Annotations : Type := List (String × Value)

structure ObjectMetadata where
  name : String
  annotations : Option Annotations
  labels : Option (List (String × String))
  deriving DecidableEq

structure NetworkSignal where
  signal : String
  annotations : Option Annotations
  deriving DecidableEq

structure NetworkMessage where
  message : String
  annotations : Option Annotations
  signals : Option (List NetworkSignal)
  deriving DecidableEq

/-- A document of kind `Network`. -/
structure Network where
  metadata : Option ObjectMetadata
  messages : List NetworkMessage
  deriving DecidableEq

structure Signal where
  signal : String
  deriving DecidableEq

/-- A document of kind `SignalGroup`. -/
structure SignalGroup where
  metadata : Option ObjectMetadata
  signals : List Signal

end Kind
end DseNetwork
