import OmapHal.Core.SearchTree
import OmapHal.Core.Thread

/-!
# Lists of properties

`smc_properties_parser.c`: the nodes of a list are linked in a tree by their names, and one after
the other. A loop that takes more turns than there are nodes has no result, nor has a comparison
with a name that is not there.
-/

namespace OmapHal.PropertyList

/-- The pointer to a node. -/
abbrev Pointer := Nat

/-- The bytes of a string in front of its terminating zero. -/
def Name := List (Fin 256)

instance : LinearOrder Name := inferInstanceAs (LinearOrder (List (Fin 256)))

inductive S_RESULT where
  | S_SUCCESS
  | S_ERROR_BAD_PARAMETERS
  | S_ERROR_ITEM_EXISTS
  deriving DecidableEq, Repr

/-- Only the sign of the result of a comparison is used. -/
def strcmp (pName1 pName2 : Name) : Ordering := cmp pName1 pName2

local instance neZeroByte : NeZero 256 := ⟨by decide⟩

def tolower (c : Fin 256) : Fin 256 := if 65 ≤ c ∧ c ≤ 90 then c + 32 else c

def lowered (pName : Name) : Name := List.map tolower pName

def STRICMP (pName1 pName2 : Name) : Ordering := cmp (lowered pName1) (lowered pName2)

/-- The list, with the nodes in memory. -/
structure LIST where
  pRoot : Option Pointer
  pFirst : Option Pointer
  pLeft : Pointer → Option Pointer
  pRight : Pointer → Option Pointer
  pNext : Pointer → Option Pointer
  pPrevious : Pointer → Option Pointer
  pName : Pointer → Option Name

/-- A pointer is stored in a node, if there is one. -/
def store (field : Pointer → Option Pointer) (pNode : Option Pointer) (value : Pointer) :
    Pointer → Option Pointer :=
  pNode.elim field fun p => Function.update field p (some value)

namespace LIST

/-- The loop of `static_listFindNodeElement`. -/
def static_listFindNodeElement (m : LIST) (pName : Name) (bIsCaseSensitive : Bool) :
    Nat → Option Pointer → Option (Option Pointer)
  | _, none => some none
  | 0, some _ => none
  | turns + 1, some pList => do
    let listName ← m.pName pList
    let nCmp := if bIsCaseSensitive then strcmp pName listName else STRICMP pName listName
    match nCmp with
    | .gt => static_listFindNodeElement m pName bIsCaseSensitive turns (m.pRight pList)
    | .lt => static_listFindNodeElement m pName bIsCaseSensitive turns (m.pLeft pList)
    | .eq => some (some pList)

/-- The new node on the right of one, and behind it. -/
def addRight (m : LIST) (pNode pList : Pointer) : LIST :=
  { m with
    pRight := Function.update m.pRight pList (some pNode)
    pPrevious := store (Function.update m.pPrevious pNode (some pList)) (m.pNext pList) pNode
    pNext := Function.update (Function.update m.pNext pNode (m.pNext pList)) pList (some pNode) }

/-- The new node on the left of one, and before it. -/
def addLeft (m : LIST) (pNode pList : Pointer) : LIST :=
  { m with
    pLeft := Function.update m.pLeft pList (some pNode)
    pNext := store (Function.update m.pNext pNode (some pList)) (m.pPrevious pList) pNode
    pPrevious := Function.update (Function.update m.pPrevious pNode (m.pPrevious pList)) pList
      (some pNode) }

/-- The loop of `static_listSortedAddNode`. -/
def static_listSortedAddNode (m : LIST) (pNode : Pointer) :
    Nat → Pointer → Option (S_RESULT × LIST)
  | 0, _ => none
  | turns + 1, pList => do
    let nodeName ← m.pName pNode
    let listName ← m.pName pList
    match strcmp nodeName listName with
    | .gt => match m.pRight pList with
      | some pRight => static_listSortedAddNode m pNode turns pRight
      | none => some (.S_SUCCESS, m.addRight pNode pList)
    | .lt => match m.pLeft pList with
      | some pLeft => static_listSortedAddNode m pNode turns pLeft
      | none => some (.S_SUCCESS, m.addLeft pNode pList)
    | .eq => some (.S_ERROR_ITEM_EXISTS, m)

def SMCPropListSortedAdd (m : LIST) (turns : Nat) (pNode : Pointer) : Option (S_RESULT × LIST) :=
  match m.pName pNode with
  | none => some (.S_ERROR_BAD_PARAMETERS, m)
  | some _ => match m.pRoot with
    | none => some (.S_SUCCESS, { m with pRoot := some pNode, pFirst := some pNode })
    | some pRoot => do
      let (nResult, m) ← m.static_listSortedAddNode pNode turns pRoot
      -- update the first node of the linked list
      if nResult = .S_SUCCESS ∧ m.pPrevious pNode = none then
        some (nResult, { m with pFirst := some pNode })
      else some (nResult, m)

def SMCPropListFindElement (m : LIST) (turns : Nat) (pName : Name) (bIsCaseSensitive : Bool) :
    Option (Option Pointer) :=
  if m.pRoot = none then some none
  else m.static_listFindNodeElement pName bIsCaseSensitive turns m.pRoot

/-- The caller's new node: cleared, with its name. -/
def newNode (m : LIST) (pNode : Pointer) (pName : Option Name) : LIST :=
  { m with
    pLeft := Function.update m.pLeft pNode none
    pRight := Function.update m.pRight pNode none
    pNext := Function.update m.pNext pNode none
    pPrevious := Function.update m.pPrevious pNode none
    pName := Function.update m.pName pNode pName }

end LIST

end OmapHal.PropertyList
