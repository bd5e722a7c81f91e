import OmapHal.Core.Tokens
import OmapHal.PolicyManager.Model

/-!
# Reading the policy table

`PopulatePolicyTable`. A line of the file is a combination: names of components, each with its
priority behind it.
-/

namespace OmapHal.PolicyManager

open OmapHal.Core

def PM_MAXSTRINGLENGTH : Nat := 2000

/-- The names of the components. The array has a place more, which holds a null pointer. -/
def PM_ComponentTable : List (List Char) :=
  ["OMX_MP3_Decoder_COMPONENT".toList, "OMX_AAC_Decoder_COMPONENT".toList,
    "OMX_AAC_Encoder_COMPONENT".toList, "OMX_ARMAAC_Encoder_COMPONENT".toList,
    "OMX_ARMAAC_Decoder_COMPONENT".toList, "OMX_PCM_Decoder_COMPONENT".toList,
    "OMX_PCM_Encoder_COMPONENT".toList, "OMX_NBAMR_Decoder_COMPONENT".toList,
    "OMX_NBAMR_Encoder_COMPONENT".toList, "OMX_WBAMR_Decoder_COMPONENT".toList,
    "OMX_WBAMR_Encoder_COMPONENT".toList, "OMX_WMA_Decoder_COMPONENT".toList,
    "OMX_G711_Decoder_COMPONENT".toList, "OMX_G711_Encoder_COMPONENT".toList,
    "OMX_G722_Decoder_COMPONENT".toList, "OMX_G722_Encoder_COMPONENT".toList,
    "OMX_G723_Decoder_COMPONENT".toList, "OMX_G723_Encoder_COMPONENT".toList,
    "OMX_G726_Decoder_COMPONENT".toList, "OMX_G726_Encoder_COMPONENT".toList,
    "OMX_G729_Decoder_COMPONENT".toList, "OMX_G729_Encoder_COMPONENT".toList,
    "OMX_GSMFR_Decoder_COMPONENT".toList, "OMX_GSMHR_Decoder_COMPONENT".toList,
    "OMX_GSMFR_Encoder_COMPONENT".toList, "OMX_GSMHR_Encoder_COMPONENT".toList,
    "OMX_ILBC_Decoder_COMPONENT".toList, "OMX_ILBC_Encoder_COMPONENT".toList,
    "OMX_IMAADPCM_Decoder_COMPONENT".toList, "OMX_IMAADPCM_Encoder_COMPONENT".toList,
    "OMX_RAGECKO_Decoder_COMPONENT".toList, "OMX_MPEG4_Decode_COMPONENT".toList,
    "OMX_MPEG4_Encode_COMPONENT".toList, "OMX_H263_Decode_COMPONENT".toList,
    "OMX_H263_Encode_COMPONENT".toList, "OMX_H264_Decode_COMPONENT".toList,
    "OMX_H264_Encode_COMPONENT".toList, "OMX_WMV_Decode_COMPONENT".toList,
    "OMX_MPEG2_Decode_COMPONENT".toList, "OMX_720P_Decode_COMPONENT".toList,
    "OMX_720P_Encode_COMPONENT".toList, "OMX_JPEG_Decoder_COMPONENT".toList,
    "OMX_JPEG_Encoder_COMPONENT".toList, "OMX_VPP_COMPONENT".toList,
    "OMX_CAMERA_COMPONENT".toList, "OMX_DISPLAY_COMPONENT".toList]

/-- `PolicyStringToIndex`. A name that is not in the table is compared with the null pointer behind
the names before -1 is returned; then there is no result. -/
def PolicyStringToIndex (aString : List Char) : Option Nat :=
  PM_ComponentTable.findIdx? (· = aString)

/-! ### Lines -/

def newline (c : Char) : Bool := c = '\n'

/-- The separators `","` of the first call to `strtok`. -/
def comma (c : Char) : Bool := c = ','

/-- The separators `" ,\n"` of the other calls. -/
def separator (c : Char) : Bool := c = ' ' || c = ',' || c = '\n'

/-- What `fgets` puts into the buffer, call by call. -/
def chunks (file : List Char) : List (List Char) := pieces newline (PM_MAXSTRINGLENGTH - 2) file

/-- The string in the buffer. -/
def cString (chunk : List Char) : List Char := chunk.takeWhile (· ≠ '\x00')

/-! ### Reading -/

/-- `OMX_POLICY_COMBINATION`, without the mark of the active one. -/
structure Combination where
  numComponentsInCombination : Nat
  component : Nat → ComponentPriority

def Combination.cleared : Combination := ⟨0, fun _ => ⟨0, 0⟩⟩

def Combination.setComponent (row : Combination) (j component : Nat) : Combination :=
  { row with component := Function.update row.component j { row.component j with component } }

def Combination.setPriority (row : Combination) (j priority : Nat) : Combination :=
  { row with component := Function.update row.component j { row.component j with priority } }

/-- What becomes of a line: undefined behaviour, a return from the function with the combination as
far as it was stored, or a combination with the count of tokens that decides on names and
numbers. -/
inductive LineOutcome where
  | undefined
  | exit (ret : Int) (row : Combination)
  | stored (row : Combination) (index : Nat)

/-- The inner loop, over the tokens that are left. The width is checked before each of them and
before their end. -/
def storeTokens (row : Combination) (policyIndex index : Nat) : List (List Char) → LineOutcome
  | [] =>
    if policyIndex ≥ OMX_POLICY_MAX_COMBINATION_LENGTH then .exit (-1) row
    else .stored { row with numComponentsInCombination := policyIndex } index
  | result :: tokens =>
    if policyIndex ≥ OMX_POLICY_MAX_COMBINATION_LENGTH then .exit (-1) row
    else if index % 2 = 0 then
      match PolicyStringToIndex result with
      | none => .undefined
      | some component =>
        storeTokens (row.setComponent policyIndex component) policyIndex (index + 1) tokens
    else
      storeTokens (row.setPriority policyIndex (toU8 (atoi result))) (policyIndex + 1) (index + 1)
        tokens

/-- A turn of the outer loop, from the first token on. -/
def storeLine (row : Combination) (index : Nat) (chunk : List Char) : LineOutcome :=
  match nextToken comma (cString chunk) with
  | none => .exit 0 row
  | some (name, rest) =>
    match PolicyStringToIndex name with
    | none => .undefined
    | some component =>
      let row := row.setComponent 0 component
      match nextToken separator rest with
      | none => .exit 0 row
      | some (priority, rest) =>
        storeTokens (row.setPriority 0 (toU8 (atoi priority))) 1 index (tokens separator rest)

/-- What `PopulatePolicyTable` returns, and the globals it leaves. -/
structure TableState where
  ret : Int
  policyCombinationTable : Nat → Combination
  numCombinations : Nat

/-- The outer loop, from a combination on; `none` after undefined behaviour. -/
def readLines (policyCombinationTable : Nat → Combination) (combinationIndex index : Nat) :
    List (List Char) → Option TableState
  | [] =>
    if combinationIndex = 0 then some ⟨-1, policyCombinationTable, 0⟩
    else some ⟨0, policyCombinationTable, combinationIndex⟩
  | chunk :: chunks =>
    if combinationIndex ≥ OMX_POLICY_MAX_COMBINATIONS then some ⟨-1, policyCombinationTable, 0⟩
    else
      match storeLine (policyCombinationTable combinationIndex) index chunk with
      | .undefined => none
      | .exit ret row => some ⟨ret, Function.update policyCombinationTable combinationIndex row, 0⟩
      | .stored row index =>
        readLines (Function.update policyCombinationTable combinationIndex row)
          (combinationIndex + 1) index chunks

/-- `PopulatePolicyTable`, at the start of the process. Without a file it leaves the globals. -/
def PopulatePolicyTable (tablefile : Option (List Char)) : Option TableState :=
  match tablefile with
  | none => some ⟨-1, fun _ => .cleared, 0⟩
  | some file => readLines (fun _ => .cleared) 0 0 (chunks file)

end OmapHal.PolicyManager
