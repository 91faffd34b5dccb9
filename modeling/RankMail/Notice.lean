import RankMail.SizeClass

set_option autoImplicit false

/-! # Notices

Some events are worth a line in a log although nothing has failed, or although the failure is
reported otherwise as well.
-/

namespace RankMail

/-- An event worth a line in the log. -/
inductive Notice where
  /-- The arena of a rank has no room left for a slot of a class. -/
  | exhausted (rank : UInt32) (sizeClass : SizeClass) (left : Nat)
  /-- A fragment came back with another class or capacity in its header than it was carved with. -/
  | restored (slot : UInt32) (foundClass : UInt8) (foundCapacity : UInt32) (sizeClass : SizeClass)
      (capacity : UInt32)
deriving Repr, DecidableEq

def Notice.message : Notice → String
  | exhausted rank sizeClass left =>
      "fragment arena of rank " ++ toString rank ++ " exhausted for " ++ sizeClass.name ++ " ("
        ++ toString left ++ " bytes left)"
  | restored slot foundClass foundCapacity sizeClass capacity =>
      "slot " ++ toString slot ++ " header says class " ++ toString foundClass ++ " capacity "
        ++ toString foundCapacity ++ ", restoring " ++ sizeClass.name ++ " capacity "
        ++ toString capacity

end RankMail
