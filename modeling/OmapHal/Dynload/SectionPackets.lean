import OmapHal.Dynload.ByteOrder

/-!
# Extracting a section

`DLOAD_GetSection` of `getsection.c`. It stores the packets of a section one behind the other in
the caller's buffer. Addresses are counted from the start of the buffer; the bytes that are stored
are logged.
-/

namespace OmapHal.Dynload

open OmapHal.Core

/-- The file behind the stream. No longer file is opened where a `long` has 32 bits. -/
structure ModuleFile where
  bytes : List UInt8
  length_lt : bytes.length < 2 ^ 31

/-- What `DLOAD_GetSection` uses of the handle. -/
structure ModuleInfo where
  strm : ModuleFile
  reorder_map : BitVec 32

/-- What `DLOAD_GetSection` and its callers use of a section record. -/
structure SectionRecord where
  ds_size : BitVec 32
  ds_first_pkt_offset : BitVec 32
  ds_nipacks : BitVec 32

inductive SectionError where
  | E_SEEK (pos : BitVec 32)
  | E_READSTRM
  | E_ISIZ (ipsize : BitVec 32)
  | E_RELOC (ipsize : BitVec 32)
  | E_CHECKSUM
  deriving DecidableEq, Repr

/-- The position in the file, the caller's buffer, and where bytes were stored in it. -/
structure Extraction where
  posn : Nat
  data : Memory
  stored : List Nat

/-- What `DLOAD_GetSection` returns and reports, and the buffer that it leaves. -/
structure SectionResult where
  returned : Bool
  reported : Option SectionError
  data : Memory
  stored : List Nat

def TARGET_AU_BITS : Nat := 8

def IMAGE_PACKET_SIZE : Int := 1024

/-- `sizeof(struct image_packet_t) - sizeof(uint32_t)` -/
def IPH_SIZE : Nat := 12

/-- `DOFF_ALIGN` on 32 bits. -/
def doffAlign (addr : BitVec 32) : BitVec 32 := (addr + 3) &&& ~~~3

def DLOAD_RoundUpSectionSize (sectSize : BitVec 32) : BitVec 32 :=
  (sectSize + BitVec.ofNat 32 (32 / TARGET_AU_BITS - 1)) &&& -4

/-- `readBuffer` of `dynreg.c`. -/
def ModuleFile.read_buffer (strm : ModuleFile) (posn bufsize : Nat) : List UInt8 :=
  (strm.bytes.drop posn).take bufsize

theorem toInt_sub_lt_of_pos {left : Int32} (h : 0 < left) :
    (left - 4).toInt.toNat < left.toInt.toNat := by
  have hpos : 0 < left.toInt := Int32.lt_iff_toInt_lt.1 h
  rw [toInt_sub_four h]
  omega

def checksumLoop (data : Memory) (sum : BitVec 32) (dp : Nat) (left : Int32) : BitVec 32 :=
  if 0 < left then checksumLoop data (sum + data.word dp) (dp + 4) (left - 4) else sum
termination_by left.toInt.toNat
decreasing_by exact toInt_sub_lt_of_pos ‹_›

def dload_checksum (data : Memory) (dp : Nat) (siz : Int32) : BitVec 32 :=
  checksumLoop data 0 dp siz

/-- The fixed header of a packet, as it was read. -/
def packetHeader (dlthis : ModuleInfo) (bits : List UInt8) : Memory :=
  reorderIfNeeded dlthis.reorder_map (Memory.write (fun _ => 0) 0 bits) 0 12

/-- The bytes of a packet are read into the buffer. -/
def Extraction.store (s : Extraction) (dest : Nat) (bits : List UInt8) : Extraction where
  posn := s.posn + IPH_SIZE + bits.length
  data := s.data.write dest bits
  stored := s.stored ++ List.range' dest bits.length

/-- They are put into order there. -/
def Extraction.reorder (s : Extraction) (dlthis : ModuleInfo) (dest : Nat) (ipsize : BitVec 32) :
    Extraction :=
  if dlthis.reorder_map ≠ 0 then
    { s with
      data := dload_reorder s.data dest (.ofBitVec ipsize) dlthis.reorder_map
      stored := s.stored ++ List.range' dest (4 * wordCount (.ofBitVec ipsize)) }
  else s

/-- A packet of the loop: the error, if there is one, and by how much `dest` advances. -/
def getPacket (dlthis : ModuleInfo) (s : Extraction) (dest : Nat) :
    Option SectionError × Extraction × Nat :=
  let header := dlthis.strm.read_buffer s.posn IPH_SIZE
  if header.length ≠ IPH_SIZE then (some .E_READSTRM, s, 0)
  else
    let ipacket := packetHeader dlthis header
    let ipsize := doffAlign (ipacket.word 4)
    if ipsize.toInt > IMAGE_PACKET_SIZE then (some (.E_ISIZ ipsize), s, 0)
    else
      let bits := dlthis.strm.read_buffer (s.posn + IPH_SIZE) ipsize.toNat
      let s := s.store dest bits
      if (bits.length : Int) ≠ ipsize.toInt then (some .E_READSTRM, s, 0)
      else
        let s := s.reorder dlthis dest ipsize
        let checks := dload_checksum s.data dest (.ofBitVec ipsize) + dload_checksum ipacket 0 12
        if ipacket.word 0 ≠ 0 then (some (.E_RELOC ipsize), s, 0)
        else if ~~~checks ≠ 0 then (some .E_CHECKSUM, s, 0)
        else (none, s, ipsize.toNat)

/-- `while ((nip -= 1) >= 0)`. -/
def getPackets (dlthis : ModuleInfo) : Nat → Extraction → Nat → Option SectionError × Extraction
  | 0, s, _ => (none, s)
  | nip + 1, s, dest =>
    match getPacket dlthis s dest with
    | (some error, s, _) => (some error, s)
    | (none, s, ipsize) => getPackets dlthis nip s (dest + ipsize)

/-- `setFilePosn` of `dynreg.c`: a position that is negative as a `long` is refused. -/
def set_file_posn (pos : BitVec 32) : Bool := pos.toInt < 0

/-- `DLOAD_GetSection`. A count of packets that is not positive leaves the loop at once. -/
def DLOAD_GetSection (minfo : Option ModuleInfo) (sectionInfo : Option SectionRecord)
    (sectionData : Memory) : SectionResult :=
  match minfo, sectionInfo with
  | some dlthis, some sptr =>
    let pos := doffAlign sptr.ds_first_pkt_offset
    if set_file_posn pos then ⟨false, some (.E_SEEK pos), sectionData, []⟩
    else
      let (error, s) := getPackets dlthis sptr.ds_nipacks.toInt.toNat ⟨pos.toNat, sectionData, []⟩ 0
      ⟨error.isNone, error, s.data, s.stored⟩
  | _, _ => ⟨false, none, sectionData, []⟩

/-! ### What the file holds -/

namespace ModuleInfo

variable (dlthis : ModuleInfo)

/-- The length of the file. -/
def length : Nat := dlthis.strm.bytes.length

/-- A word of the file in the host's order. -/
def hostWord (p : Nat) : BitVec 32 :=
  let w := Memory.word (fun a => dlthis.strm.bytes.getD a 0) p
  if dlthis.reorder_map ≠ 0 then reorderWord dlthis.reorder_map w else w

/-- The sum of so many words from the position on. -/
def wordSum (p n : Nat) : BitVec 32 := ((List.range n).map fun k => dlthis.hostWord (p + 4 * k)).sum

/-- `i_packet_size` of the packet at a position. -/
def packetSize (p : Nat) : BitVec 32 := dlthis.hostWord (p + 4)

/-- The length of the packet's data in the file. -/
def alignedSize (p : Nat) : BitVec 32 := doffAlign (dlthis.packetSize p)

/-- The data of the packet at a position, in the host's order. -/
def packetData (p : Nat) : List UInt8 :=
  (List.range (dlthis.alignedSize p).toNat).map fun j =>
    byteOf (dlthis.hostWord (p + IPH_SIZE + 4 * (j / 4))) (j % 4)

/-- The file holds a packet of at most the largest size at this position, without relocations, whose
checksum verifies. -/
def Verifies (p : Nat) : Prop :=
  p + IPH_SIZE ≤ dlthis.length ∧ 0 ≤ (dlthis.alignedSize p).toInt ∧
    (dlthis.alignedSize p).toInt ≤ IMAGE_PACKET_SIZE ∧
    p + IPH_SIZE + (dlthis.alignedSize p).toNat ≤ dlthis.length ∧ dlthis.hostWord p = 0 ∧
    ~~~(dlthis.wordSum (p + IPH_SIZE) ((dlthis.alignedSize p).toNat / 4) + dlthis.wordSum p 3) = 0

instance (p : Nat) : Decidable (dlthis.Verifies p) := inferInstanceAs (Decidable (_ ∧ _))

/-- The positions of so many packets, one behind the other. -/
def packets : Nat → Nat → List Nat
  | 0, _ => []
  | n + 1, p => p :: packets n (p + IPH_SIZE + (dlthis.alignedSize p).toNat)

/-- How many bytes are stored for the packet at a position: what the file has of its data, unless
the header is cut short or gives too large a size. Putting no bytes into order stores a word. -/
def storedAt (p : Nat) : Nat :=
  if p + IPH_SIZE ≤ dlthis.length ∧ (dlthis.alignedSize p).toInt ≤ IMAGE_PACKET_SIZE then
    if dlthis.reorder_map ≠ 0 ∧ dlthis.alignedSize p = 0 then 4
    else min (dlthis.alignedSize p).toNat (dlthis.length - (p + IPH_SIZE))
  else 0

end ModuleInfo

end OmapHal.Dynload
