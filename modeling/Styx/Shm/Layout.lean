/-
The region layout of `internal/shm`: the geometry the host derives from its chosen
capacities and size classes, the layout page it writes, and the parser a peer runs over a
mapping it does not trust.

Every function runs in `Checked`: the reads panic where the slice expression would, sums
and products are the machine's with their exact values recorded, and each refusal names
the check that made it.
-/
import Styx.Lib.Bytes
import Styx.Lib.Checked
import Styx.Shm.Arena

namespace Styx.Region

open ByteMem Checked

def pageSize : UInt64 := 4096
def cacheLine : UInt32 := 64
def descriptorSize : UInt64 := 64
def headerSize : UInt64 := 256
def sizeClassEntrySize : Nat := 16
def minRingCapacity : UInt32 := 64
def maxRingCapacity : UInt32 := 1048576
def minLargestSlabSize : UInt32 := 4096
/-- 4 GiB − 1: a payload offset is a 32-bit offset into the arena. -/
def maxArenaBytes : UInt64 := 4294967295
/-- 1 TiB. -/
def maxRegionSize : UInt64 := 1099511627776
def syncPageReservedTailOffset : UInt64 := 512
/-- The eight bytes `STYXSHMR`, as one word. -/
def layoutMagic : UInt64 := 0x524D485358595453

/-- The check that refused a geometry. -/
inductive GeometryErr
  | overflow
  | ringCapacity
  | ringNotPowerOfTwo
  | lifecycleReserve
  | noClasses
  | slabSize (i : Nat)
  | slabOrder (i : Nat)
  | slabCount (i : Nat)
  | largestSlab
  | arenaCeiling
  | regionCeiling
  | tablesExceedPage
  | generation
  | headerFlags
  | magic
  | layoutVersion
  | pageSize
  | descriptorSize
  | shardCount
  | reservedU32
  | tableOffset
  | tableAlign
  | tableRange
  | tablesOverlap
  | classBaseOffset (i : Nat)
  | arenaBytes
  | span (off : Nat)
  | declaredSize
  | mappedLength
  | reservedHdr
  | syncTail
  | entryReserved (i : Nat)
  | arenaPad
  deriving DecidableEq

abbrev Geo : Type → Type := Checked GeometryErr

/-- One entry of a direction's size-class table. -/
structure SizeClass where
  slabSize : UInt32
  slabCount : UInt32
  classBaseOffset : UInt32
  deriving DecidableEq

structure ArenaGeometry where
  offset : UInt64
  bytes : UInt64
  classTableOffset : UInt64
  classes : List SizeClass
  deriving DecidableEq

structure Layout where
  magic : UInt64
  layoutVersion : UInt32
  headerFlags : UInt32
  generation : UInt64
  regionSize : UInt64
  ringCapacity : UInt32
  lifecycleReserve : UInt32
  syncPageOffset : UInt64
  ringHP : UInt64
  ringPH : UInt64
  arenaHP : ArenaGeometry
  arenaPH : ArenaGeometry
  deriving DecidableEq

structure DerivedGeometry where
  syncPageOffset : UInt64
  ringHPOffset : UInt64
  ringPHOffset : UInt64
  arenaHPOffset : UInt64
  arenaPHOffset : UInt64
  arenaBytesHP : UInt64
  arenaBytesPH : UInt64
  regionSize : UInt64
  deriving DecidableEq

/-! ## Derivation -/

def addOverflowSafe (sum addend : UInt64) : Geo UInt64 := do
  let result ← addU64 sum addend
  refuse (result < sum) .overflow
  pure result

def roundupPageSize (n : UInt64) : Geo UInt64 :=
  let rem := n % pageSize
  if rem = 0 then pure n else addOverflowSafe n (pageSize - rem)

def validateRingCapacity (c : UInt32) : Geo Unit := do
  refuse (c < minRingCapacity ∨ c > maxRingCapacity) .ringCapacity
  refuse (c &&& (c - 1) ≠ 0) .ringNotPowerOfTwo

def validateLifecycleReserve (r ringCapacity : UInt32) : Geo Unit :=
  refuse (r = 0 ∨ r ≥ ringCapacity) .lifecycleReserve

/-- The loop of `validateSlabBounds` from entry `i` on. -/
def slabBoundsFrom (i : Nat) (prevSlabSize : UInt32) : List SizeClass → Geo Unit
  | [] => pure ()
  | c :: cs => do
    refuse (c.slabSize = 0 ∨ c.slabSize % cacheLine ≠ 0) (.slabSize i)
    refuse (i > 0 ∧ c.slabSize ≤ prevSlabSize) (.slabOrder i)
    refuse (c.slabCount = 0) (.slabCount i)
    slabBoundsFrom (i + 1) c.slabSize cs

def validateSlabBounds (classes : List SizeClass) : Geo Unit := do
  refuse (classes.length = 0) .noClasses
  slabBoundsFrom 0 0 classes
  let last ← index classes (classes.length - 1)
  refuse (last.slabSize < minLargestSlabSize) .largestSlab

/-- The loop of `computeClassBaseOffsets`: the bases from `base` on, and where the last class ends. -/
def basesFrom (base : UInt64) : List SizeClass → Geo (List UInt64 × UInt64)
  | [] => pure ([], base)
  | c :: cs => do
    let extent ← mulU64 c.slabSize.toUInt64 c.slabCount.toUInt64
    let next ← addOverflowSafe base extent
    let rest ← basesFrom next cs
    pure (base :: rest.1, rest.2)

def computeClassBaseOffsets (classes : List SizeClass) : Geo (List UInt64 × UInt64) := basesFrom 0 classes

/-- Each class with its base filled in. -/
def fillBases (classes : List SizeClass) (bases : List UInt64) : List SizeClass :=
  classes.zipWith (fun c b => { c with classBaseOffset := b.toUInt32 }) bases

def buildArenaGeometry (classes : List SizeClass) : Geo (List SizeClass × UInt64) := do
  validateSlabBounds classes
  let bt ← computeClassBaseOffsets classes
  let arenaBytes ← roundupPageSize bt.2
  refuse (arenaBytes > maxArenaBytes) .arenaCeiling
  pure (fillBases classes bt.1, arenaBytes)

def deriveSpans (ringCapacity : UInt32) (arenaBytesHP arenaBytesPH : UInt64) : Geo DerivedGeometry := do
  let ringSpan ← mulU64 ringCapacity.toUInt64 descriptorSize
  let syncPageOffset := pageSize
  let ringHPOffset ← addOverflowSafe syncPageOffset pageSize
  let ringPHOffset ← addOverflowSafe ringHPOffset ringSpan
  let arenaHPOffset ← addOverflowSafe ringPHOffset ringSpan
  let arenaPHOffset ← addOverflowSafe arenaHPOffset arenaBytesHP
  let regionSize ← addOverflowSafe arenaPHOffset arenaBytesPH
  refuse (regionSize > maxRegionSize) .regionCeiling
  pure { syncPageOffset, ringHPOffset, ringPHOffset, arenaHPOffset, arenaPHOffset, arenaBytesHP, arenaBytesPH,
         regionSize }

/-- `uint64(n) * uint64(sizeClassEntrySize)`. -/
def tableBytes (n : UInt64) : Geo UInt64 := mulU64 n (UInt64.ofNat sizeClassEntrySize)

def deriveLayout (layout : Layout) : Geo Layout := do
  validateRingCapacity layout.ringCapacity
  validateLifecycleReserve layout.lifecycleReserve layout.ringCapacity
  let hp ← buildArenaGeometry layout.arenaHP.classes
  let ph ← buildArenaGeometry layout.arenaPH.classes
  let spans ← deriveSpans layout.ringCapacity hp.2 ph.2
  let classTableHPOffset := headerSize
  let classTablePHOffset ← addU64 classTableHPOffset (← tableBytes (UInt64.ofNat hp.1.length))
  let classTablesEnd ← addU64 classTablePHOffset (← tableBytes (UInt64.ofNat ph.1.length))
  refuse (classTablesEnd > pageSize) .tablesExceedPage
  pure { magic := layout.magic, layoutVersion := layout.layoutVersion, headerFlags := layout.headerFlags,
         generation := layout.generation, regionSize := spans.regionSize, ringCapacity := layout.ringCapacity,
         lifecycleReserve := layout.lifecycleReserve, syncPageOffset := spans.syncPageOffset,
         ringHP := spans.ringHPOffset, ringPH := spans.ringPHOffset,
         arenaHP := ⟨spans.arenaHPOffset, hp.2, classTableHPOffset, hp.1⟩,
         arenaPH := ⟨spans.arenaPHOffset, ph.2, classTablePHOffset, ph.1⟩ }

/-! ## The layout page -/

/-- A mapping: its bytes and its length. -/
structure Mapping where
  len : Nat
  byte : Nat → UInt8
  len_lt : len < 2 ^ 63

def entryFields (off : Nat) (c : SizeClass) : List Field :=
  [⟨off, 4, c.slabSize.toNat⟩, ⟨off + 4, 4, c.slabCount.toNat⟩, ⟨off + 8, 4, c.classBaseOffset.toNat⟩,
   ⟨off + 12, 4, 0⟩]

/-- The entries `writeClassTable` puts, the first at `off`. -/
def tableFields (off : Nat) : List SizeClass → List Field
  | [] => []
  | c :: cs => entryFields off c ++ tableFields (off + sizeClassEntrySize) cs

/-- The header `writeLayoutPage` puts, in its order. -/
def headerFields (l : Layout) : List Field :=
  [⟨0, 8, l.magic.toNat⟩,
   ⟨8, 4, l.layoutVersion.toNat⟩,
   ⟨12, 4, l.headerFlags.toNat⟩,
   ⟨16, 8, l.generation.toNat⟩,
   ⟨24, 8, l.regionSize.toNat⟩,
   ⟨32, 4, pageSize.toNat⟩,
   ⟨36, 4, descriptorSize.toNat⟩,
   ⟨40, 4, l.ringCapacity.toNat⟩,
   ⟨44, 4, (UInt32.ofNat l.arenaHP.classes.length).toNat⟩,
   ⟨48, 4, (UInt32.ofNat l.arenaPH.classes.length).toNat⟩,
   ⟨52, 4, 0⟩,
   ⟨56, 8, l.syncPageOffset.toNat⟩,
   ⟨64, 8, l.ringHP.toNat⟩,
   ⟨72, 8, l.ringPH.toNat⟩,
   ⟨80, 8, l.arenaHP.offset.toNat⟩,
   ⟨88, 8, l.arenaPH.offset.toNat⟩,
   ⟨96, 8, l.arenaHP.bytes.toNat⟩,
   ⟨104, 8, l.arenaPH.bytes.toNat⟩,
   ⟨112, 8, l.arenaHP.classTableOffset.toNat⟩,
   ⟨120, 8, l.arenaPH.classTableOffset.toNat⟩,
   ⟨128, 8, 1⟩,
   ⟨136, 4, l.lifecycleReserve.toNat⟩,
   ⟨140, 116, 0⟩]

def pageFields (l : Layout) : List Field :=
  headerFields l ++ (tableFields l.arenaHP.classTableOffset.toNat l.arenaHP.classes ++
    tableFields l.arenaPH.classTableOffset.toNat l.arenaPH.classes)

def writeLayoutPage (byte : Nat → UInt8) (l : Layout) : Nat → UInt8 := putAll byte (pageFields l)

/-- `CreateRegion`: the layout as it is written, and its page's bytes over a fresh zero mapping. -/
def createRegion (input : Layout) : Geo (Layout × (Nat → UInt8)) := do
  refuse (input.generation = 0) .generation
  refuse (input.headerFlags ≠ 0) .headerFlags
  let layout ← deriveLayout input
  let layout := { layout with magic := layoutMagic, layoutVersion := 1, generation := input.generation }
  pure (layout, writeLayoutPage (fun _ => 0) layout)

/-! ## Attachment -/

/-- `data[off : off+n]` as one little-endian word. -/
def readWord (data : Mapping) (off n : Nat) : Geo Nat := do
  let stop ← addInt off n
  if off ≤ stop ∧ stop ≤ data.len then pure (getLE data.byte off n) else outOfRange

def readU32 (data : Mapping) (off : Nat) : Geo UInt32 := do
  let w ← readWord data off 4
  pure (UInt32.ofNat w)

def readU64 (data : Mapping) (off : Nat) : Geo UInt64 := do
  let w ← readWord data off 8
  pure (UInt64.ofNat w)

/-- `isZero(data[start:stop])`. -/
def isZero (data : Mapping) (start stop : Nat) : Geo Bool :=
  if start ≤ stop ∧ stop ≤ data.len then
    pure ((List.range (stop - start)).all fun k => data.byte (start + k) == 0)
  else outOfRange

def checkHeaderScalars (data : Mapping) : Geo Unit := do
  let magic ← readU64 data 0
  refuse (magic ≠ layoutMagic) .magic
  let v ← readU32 data 8
  refuse (v ≠ 1) .layoutVersion
  let v ← readU32 data 32
  refuse (v ≠ pageSize.toUInt32) .pageSize
  let v ← readU32 data 36
  refuse (v ≠ descriptorSize.toUInt32) .descriptorSize
  let v ← readU64 data 128
  refuse (v ≠ 1) .shardCount
  let v ← readU32 data 52
  refuse (v ≠ 0) .reservedU32

def checkRingReservation (data : Mapping) : Geo (UInt32 × UInt32) := do
  let ringCapacity ← readU32 data 40
  validateRingCapacity ringCapacity
  let lifecycleReserve ← readU32 data 136
  validateLifecycleReserve lifecycleReserve ringCapacity
  pure (ringCapacity, lifecycleReserve)

def checkOneClassTableRange (n : UInt32) (tableOff : UInt64) : Geo Unit := do
  refuse (n < 1) .noClasses
  refuse (tableOff < headerSize ∨ tableOff ≥ pageSize) .tableOffset
  refuse (tableOff % 4 ≠ 0) .tableAlign
  let stop ← addU64 tableOff (← tableBytes n.toUInt64)
  refuse (stop > pageSize) .tableRange

def overlaps (aStart aEnd bStart bEnd : UInt64) : Prop := aStart < bEnd ∧ bStart < aEnd

instance {aStart aEnd bStart bEnd : UInt64} : Decidable (overlaps aStart aEnd bStart bEnd) :=
  inferInstanceAs (Decidable (_ ∧ _))

def checkClassTableRanges (numHP numPH : UInt32) (offHPTable offPHTable : UInt64) : Geo Unit := do
  checkOneClassTableRange numHP offHPTable
  checkOneClassTableRange numPH offPHTable
  let endHP ← addU64 offHPTable (← tableBytes numHP.toUInt64)
  let endPH ← addU64 offPHTable (← tableBytes numPH.toUInt64)
  refuse (overlaps offHPTable endHP offPHTable endPH) .tablesOverlap

/-- `int(tableOff) + i*sizeClassEntrySize`. -/
def entryOffset (tableOff : UInt64) (i : Nat) : Geo Nat := do
  let d ← mulInt i sizeClassEntrySize
  addInt tableOff.toNat d

def readClass (data : Mapping) (tableOff : UInt64) (i : Nat) : Geo SizeClass := do
  let entryOff ← entryOffset tableOff i
  let slabSize ← readU32 data entryOff
  let slabCount ← readU32 data (← addInt entryOff 4)
  let classBaseOffset ← readU32 data (← addInt entryOff 8)
  pure { slabSize, slabCount, classBaseOffset }

/-- The entries from `i` on, `n` of them. -/
def readClasses (data : Mapping) (tableOff : UInt64) (i : Nat) : Nat → Geo (List SizeClass)
  | 0 => pure []
  | n + 1 => do
    let c ← readClass data tableOff i
    let cs ← readClasses data tableOff (i + 1) n
    pure (c :: cs)

/-- The comparison loop of `checkClassBaseOffsets` from entry `i` on. -/
def basesMatchFrom (bases : List UInt64) (i : Nat) : List SizeClass → Geo Unit
  | [] => pure ()
  | c :: cs => do
    let want ← index bases i
    refuse (c.classBaseOffset.toUInt64 ≠ want) (.classBaseOffset i)
    basesMatchFrom bases (i + 1) cs

def checkClassBaseOffsets (classes : List SizeClass) : Geo UInt64 := do
  let bt ← computeClassBaseOffsets classes
  basesMatchFrom bt.1 0 classes
  pure bt.2

def checkClassRules (data : Mapping) (tableOff : UInt64) (n : UInt32) : Geo (List SizeClass × UInt64) := do
  let classes ← readClasses data tableOff 0 n.toNat
  validateSlabBounds classes
  let classTotal ← checkClassBaseOffsets classes
  pure (classes, classTotal)

def checkArenaTotal (classTotal storedArenaBytes : UInt64) : Geo UInt64 := do
  let want ← roundupPageSize classTotal
  refuse (want > maxArenaBytes) .arenaCeiling
  refuse (storedArenaBytes ≠ want) .arenaBytes
  pure want

/-- Each stored span against its recomputed value, in order. -/
def checkSpans (data : Mapping) : List (Nat × UInt64) → Geo Unit
  | [] => pure ()
  | f :: fs => do
    let got ← readU64 data f.1
    refuse (got ≠ f.2) (.span f.1)
    checkSpans data fs

def checkSpansAndCoverage (data : Mapping) (spans : DerivedGeometry) (declaredRegionSize : UInt64) : Geo Unit := do
  checkSpans data
    [(56, spans.syncPageOffset), (64, spans.ringHPOffset), (72, spans.ringPHOffset), (80, spans.arenaHPOffset),
     (88, spans.arenaPHOffset), (24, spans.regionSize)]
  refuse (spans.regionSize ≠ declaredRegionSize) .declaredSize
  refuse (UInt64.ofNat data.len ≠ spans.regionSize) .mappedLength

def checkSyncPageReservedTailZero (data : Mapping) (spans : DerivedGeometry) : Geo Unit := do
  let start ← addU64 spans.syncPageOffset syncPageReservedTailOffset
  let stop ← addU64 spans.syncPageOffset pageSize
  let z ← isZero data start.toNat stop.toNat
  refuse (z = false) .syncTail

/-- `checkClassEntriesReservedZero` from entry `i` on, `n` of them. -/
def entriesReservedZeroFrom (data : Mapping) (tableOff : UInt64) (i : Nat) : Nat → Geo Unit
  | 0 => pure ()
  | n + 1 => do
    let entryOff ← entryOffset tableOff i
    let v ← readU32 data (← addInt entryOff 12)
    refuse (v ≠ 0) (.entryReserved i)
    entriesReservedZeroFrom data tableOff (i + 1) n

def checkClassEntriesReservedZero (data : Mapping) (tableOff : UInt64) (n : UInt32) : Geo Unit :=
  entriesReservedZeroFrom data tableOff 0 n.toNat

def checkArenaPadZero (data : Mapping) (arenaOffset classTotal arenaBytes : UInt64) : Geo Unit := do
  let padStart ← addU64 arenaOffset classTotal
  let padEnd ← addU64 arenaOffset arenaBytes
  let z ← isZero data padStart.toNat padEnd.toNat
  refuse (z = false) .arenaPad

def checkReservedZero (data : Mapping) (spans : DerivedGeometry) (classTableHPOff : UInt64) (numHP : UInt32)
    (classTablePHOff : UInt64) (numPH : UInt32) (classTotalHP classTotalPH : UInt64) : Geo Unit := do
  let v ← readU32 data 12
  refuse (v ≠ 0) .headerFlags
  let z ← isZero data 140 (140 + 116)
  refuse (z = false) .reservedHdr
  checkSyncPageReservedTailZero data spans
  checkClassEntriesReservedZero data classTableHPOff numHP
  checkClassEntriesReservedZero data classTablePHOff numPH
  checkArenaPadZero data spans.arenaHPOffset classTotalHP spans.arenaBytesHP
  checkArenaPadZero data spans.arenaPHOffset classTotalPH spans.arenaBytesPH

def parseLayoutPhase2 (data : Mapping) (declaredRegionSize : UInt64) : Geo Layout := do
  checkHeaderScalars data
  let ring ← checkRingReservation data
  let numHP ← readU32 data 44
  let numPH ← readU32 data 48
  let classTableHPOff ← readU64 data 112
  let classTablePHOff ← readU64 data 120
  checkClassTableRanges numHP numPH classTableHPOff classTablePHOff
  let hp ← checkClassRules data classTableHPOff numHP
  let ph ← checkClassRules data classTablePHOff numPH
  let arenaBytesHP ← checkArenaTotal hp.2 (← readU64 data 96)
  let arenaBytesPH ← checkArenaTotal ph.2 (← readU64 data 104)
  let spans ← deriveSpans ring.1 arenaBytesHP arenaBytesPH
  checkSpansAndCoverage data spans declaredRegionSize
  checkReservedZero data spans classTableHPOff numHP classTablePHOff numPH hp.2 ph.2
  let magic ← readU64 data 0
  let layoutVersion ← readU32 data 8
  let headerFlags ← readU32 data 12
  let generation ← readU64 data 16
  pure { magic, layoutVersion, headerFlags, generation, regionSize := spans.regionSize, ringCapacity := ring.1,
         lifecycleReserve := ring.2, syncPageOffset := spans.syncPageOffset, ringHP := spans.ringHPOffset,
         ringPH := spans.ringPHOffset,
         arenaHP := ⟨spans.arenaHPOffset, arenaBytesHP, classTableHPOff, hp.1⟩,
         arenaPH := ⟨spans.arenaPHOffset, arenaBytesPH, classTablePHOff, ph.1⟩ }

end Styx.Region
