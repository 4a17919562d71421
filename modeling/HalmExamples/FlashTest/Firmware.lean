import HalmExamples.FlashTest.MemoryTest

/-!
# Firmware and bootloader under the flash test

The image is linked `DFU_LENGTH` above the start of flash, but the address of
the test is computed from the size of the image alone.  The test spares what it
runs on exactly when no sector starts between the two.
-/

set_option autoImplicit false

namespace HalmExamples.FlashTest

open Foundation Halm

/-- Regions of power-of-two sectors from offset 0, each aligned to its sectors. -/
structure Geometry where
  regions : List FlashGeometry
  powers : ∀ region ∈ regions, region.size.isPowerOfTwo
  aligned : Tiling.Aligned 0 regions
  addressable : Tiling.extent regions < 2 ^ 32

structure GeometryLibrary.Documented (library : GeometryLibrary) (geometry : Geometry) :
    Prop where
  lists : ∀ capacity, library.flashGetGeometry capacity = geometry.regions.take capacity
  finds : ∀ listed address region, library.flashFindRegion listed address = some region ↔
    Tiling.Within 0 listed address region

def Geometry.SectorStart (geometry : Geometry) (offset : Nat) : Prop :=
  Tiling.Start 0 geometry.regions offset

/-- An image as the linker scripts place it, text in flash and data in memory. -/
structure LinkLayout where
  flashStart : Nat
  dfuLength : Nat
  textSize : Nat
  dataSize : Nat
  ramStart : Nat

namespace LinkLayout

def romOrigin (layout : LinkLayout) : Nat := layout.flashStart + layout.dfuLength

def symbols (layout : LinkLayout) : Symbols :=
  { stext := wrap32 layout.romOrigin
    sidata := wrap32 (layout.romOrigin + layout.textSize)
    sdata := wrap32 layout.ramStart
    edata := wrap32 (layout.ramStart + layout.dataSize) }

def imageSize (layout : LinkLayout) : Nat := layout.textSize + layout.dataSize

def bootloader (layout : LinkLayout) : Range := ⟨0, layout.dfuLength⟩

def image (layout : LinkLayout) : Range := ⟨layout.dfuLength, layout.imageSize⟩

def EndsBeforeLastSector (layout : LinkLayout) (geometry : Geometry) : Prop :=
  ∃ start, geometry.SectorStart start ∧ layout.dfuLength + layout.imageSize ≤ start

/-- The test has an address, at a sector of the flash, and with any driver all it
touches lies outside the bootloader and the image. -/
def Spared (layout : LinkLayout) (geometry : Geometry) (library : GeometryLibrary)
    (bufferLength : Nat) : Prop :=
  ∃ address, findNearestRegion library layout.symbols = some address ∧
    geometry.SectorStart address ∧
    ∀ (State : Type) (interface : Interface State) (paramSize paramErase : Parameter)
      (state : State),
      ∀ range ∈ (memoryTestSequence library layout.symbols bufferLength interface paramSize
        paramErase state).touched,
        ∀ offset, range.Contains offset →
          ¬ layout.bootloader.Contains offset ∧ ¬ layout.image.Contains offset

end LinkLayout

/-! ## The chosen address -/

theorem sub32_wrap32_add (base size : Nat) (bound : size < 2 ^ 32) :
    sub32 (wrap32 (base + size)) (wrap32 base) = size := by
  unfold sub32 wrap32
  omega

section Address

variable {layout : LinkLayout} {geometry : Geometry} {library : GeometryLibrary}

theorem imageSize_lt (ends : layout.EndsBeforeLastSector geometry) :
    layout.imageSize < 2 ^ 32 := by
  obtain ⟨start, isStart, above⟩ := ends
  have inside := Tiling.start_lt_extent geometry.aligned isStart
  have small := geometry.addressable
  omega

theorem roundUp_eq_next (region : FlashGeometry) (address : Nat)
    (power : region.size.isPowerOfTwo) (sizeBound : region.size < 2 ^ 32)
    (bound : Tiling.next region address < 2 ^ 32) :
    wrap32 ((address &&& not32 (sub32 region.size 1)) + region.size) =
      Tiling.next region address := by
  obtain ⟨exponent, size⟩ := power
  have positive : 0 < 2 ^ exponent := Nat.two_pow_pos exponent
  have small : exponent ≤ 32 := by
    rw [size] at sizeBound
    exact Nat.le_of_lt ((Nat.pow_lt_pow_iff_right (by decide)).mp sizeBound)
  have addressBound : address < 2 ^ 32 :=
    Nat.lt_trans (Tiling.lt_next region address (by omega)) bound
  unfold Tiling.next at bound ⊢
  rw [size] at bound sizeBound ⊢
  rw [sub32_of_le _ _ (by omega) sizeBound, and_not32_mask address exponent addressBound small,
    wrap32_of_lt _ bound]

theorem findRegion_eq_some_iff (documented : library.Documented geometry) (address : Nat)
    (region : FlashGeometry) :
    findRegion library address = some region ↔
      Tiling.Within 0 (geometry.regions.take geometryEntries) address region := by
  unfold findRegion
  dsimp only
  rw [documented.lists]
  by_cases listed : (geometry.regions.take geometryEntries).length > 0
  · rw [if_pos listed]
    exact documented.finds _ address region
  · have empty : geometry.regions.take geometryEntries = [] :=
      List.eq_nil_of_length_eq_zero (by omega)
    rw [if_neg listed, empty]
    simp [Tiling.Within]

theorem symbols_imageSize (ends : layout.EndsBeforeLastSector geometry) :
    wrap32 (sub32 layout.symbols.sidata layout.symbols.stext +
      sub32 layout.symbols.edata layout.symbols.sdata) = layout.imageSize := by
  have small := imageSize_lt ends
  unfold LinkLayout.imageSize at small
  unfold LinkLayout.symbols
  dsimp only
  rw [sub32_wrap32_add _ _ (by omega), sub32_wrap32_add _ _ (by omega), wrap32_of_lt _ small]
  rfl

/-- The address is the start of a sector, or the end of flash, and no sector
starts between it and the image size. -/
theorem findNearestRegion_eq_some_iff (documented : library.Documented geometry)
    (ends : layout.EndsBeforeLastSector geometry) (address : Nat) :
    findNearestRegion library layout.symbols = some address ↔
      ∃ region, Tiling.Within 0 (geometry.regions.take geometryEntries) layout.imageSize region ∧
        address = Tiling.next region layout.imageSize := by
  unfold findNearestRegion
  dsimp only
  rw [symbols_imageSize ends, Option.map_eq_some_iff]
  have rounded : ∀ region,
      Tiling.Within 0 (geometry.regions.take geometryEntries) layout.imageSize region →
      wrap32 ((layout.imageSize &&& not32 (sub32 region.size 1)) + region.size) =
        Tiling.next region layout.imageSize := by
    intro region listed
    have within := Tiling.within_of_take listed
    have top := Tiling.next_le_extent geometry.aligned within
    have small := geometry.addressable
    have unit : region.size ≤ Tiling.next region layout.imageSize := Nat.le_add_left _ _
    exact roundUp_eq_next region layout.imageSize
      (geometry.powers region (Tiling.within_mem within)) (by omega) (by omega)
  constructor
  · intro found
    obtain ⟨region, isRegion, same⟩ := found
    have listed := (findRegion_eq_some_iff documented layout.imageSize region).mp isRegion
    exact ⟨region, listed, by rw [← same, rounded region listed]⟩
  · intro chosen
    obtain ⟨region, listed, same⟩ := chosen
    refine ⟨region, (findRegion_eq_some_iff documented layout.imageSize region).mpr listed, ?_⟩
    rw [rounded region listed, same]

end Address

/-! ## A driver that accepts everything -/

def grantingInterface : Interface Unit :=
  { getParam := fun _ _ => some 2048
    setParam := fun state _ _ => (true, state)
    read := fun state _ => ([], state)
    write := fun state _ length => (length, state) }

theorem granted_erase_touched (library : GeometryLibrary) (symbols : Symbols)
    (bufferLength address : Nat) (found : findNearestRegion library symbols = some address) :
    (⟨address, 2048⟩ : Range) ∈ (memoryTestSequence library symbols bufferLength
      grantingInterface .flashSectorSize .flashEraseSector ()).touched := by
  unfold memoryTestSequence
  rw [found]
  simp [grantingInterface, testUnit, eraseUnit, TestRun.andThen]

/-! ## What is spared -/

section Spared

variable {layout : LinkLayout} {geometry : Geometry} {library : GeometryLibrary}

/-- An address that is spared lies above the image: the erase starts there. -/
theorem spared_address_above (bufferLength address : Nat)
    (found : findNearestRegion library layout.symbols = some address)
    (spared : ∀ range ∈ (memoryTestSequence library layout.symbols bufferLength
      grantingInterface .flashSectorSize .flashEraseSector ()).touched,
      ∀ offset, range.Contains offset →
        ¬ layout.bootloader.Contains offset ∧ ¬ layout.image.Contains offset) :
    layout.dfuLength + layout.imageSize ≤ address := by
  have erased := granted_erase_touched library layout.symbols bufferLength address found
  have atStart : (⟨address, 2048⟩ : Range).Contains address := ⟨Nat.le_refl _, by simp⟩
  obtain ⟨notBootloader, notImage⟩ := spared _ erased address atStart
  simp only [LinkLayout.bootloader, LinkLayout.image, Range.Contains] at notBootloader notImage
  omega

/-- The flash test spares the firmware and the bootloader exactly if the offset
of the image size is in a listed region, some sector starts above it, and none of
those starts before the image has ended. -/
theorem firmware_spared_iff (layout : LinkLayout) (geometry : Geometry)
    (library : GeometryLibrary) (bufferLength : Nat) (documented : library.Documented geometry)
    (ends : layout.EndsBeforeLastSector geometry) :
    layout.Spared geometry library bufferLength ↔
      layout.imageSize < Tiling.extent (geometry.regions.take geometryEntries) ∧
      (∃ start, geometry.SectorStart start ∧ layout.imageSize < start) ∧
      ∀ start, geometry.SectorStart start → layout.imageSize < start →
        layout.dfuLength + layout.imageSize ≤ start := by
  constructor
  · intro spared
    obtain ⟨address, found, isStart, untouched⟩ := spared
    obtain ⟨region, listed, chosen⟩ :=
      (findNearestRegion_eq_some_iff documented ends address).mp found
    have within := Tiling.within_of_take listed
    have positive := Tiling.within_size_pos geometry.aligned within
    have above : layout.dfuLength + layout.imageSize ≤ address :=
      spared_address_above bufferLength address found
        (untouched Unit grantingInterface .flashSectorSize .flashEraseSector ())
    have inListed := (Tiling.exists_within_iff _ _ _).mp ⟨region, listed⟩
    refine ⟨by omega, ⟨address, isStart, ?_⟩, ?_⟩
    · rw [chosen]
      exact Tiling.lt_next region layout.imageSize positive
    · intro start startsHere larger
      have least := Tiling.next_least geometry.aligned within startsHere larger
      omega
  · intro condition
    obtain ⟨inListed, ⟨start, isStart, larger⟩, noneBetween⟩ := condition
    obtain ⟨region, listed⟩ :=
      (Tiling.exists_within_iff 0 layout.imageSize
        (geometry.regions.take geometryEntries)).mpr ⟨Nat.zero_le _, by omega⟩
    have within := Tiling.within_of_take listed
    have positive := Tiling.within_size_pos geometry.aligned within
    have found := (findNearestRegion_eq_some_iff documented ends _).mpr ⟨region, listed, rfl⟩
    have chosenStart : geometry.SectorStart (Tiling.next region layout.imageSize) := by
      rcases Tiling.next_start geometry.aligned within with starts | atEnd
      · exact starts
      · have least := Tiling.next_least geometry.aligned within isStart larger
        have inside := Tiling.start_lt_extent geometry.aligned isStart
        omega
    have above := noneBetween _ chosenStart (Tiling.lt_next region layout.imageSize positive)
    refine ⟨_, found, chosenStart, ?_⟩
    intro State interface paramSize paramErase state range member offset contained
    have atAddress := memoryTestSequence_touched library layout.symbols bufferLength interface
      paramSize paramErase state _ found range member
    simp only [LinkLayout.bootloader, LinkLayout.image, Range.Contains] at contained ⊢
    omega

end Spared

/-! ## A part with two regions -/

def referenceLibrary (geometry : Geometry) : GeometryLibrary :=
  { flashGetGeometry := fun capacity => geometry.regions.take capacity
    flashFindRegion := fun listed address => Tiling.find 0 listed address }

theorem referenceLibrary_documented (geometry : Geometry) :
    (referenceLibrary geometry).Documented geometry :=
  { lists := fun _ => rfl
    finds := fun listed address region => Tiling.find_eq_some_iff 0 address listed region }

/-- 512 KiB: sixteen sectors of 4 KiB, then fourteen of 32 KiB. -/
def lpc17xxGeometry : Geometry :=
  { regions := [⟨16, 4096⟩, ⟨14, 32768⟩]
    powers := by
      intro region member
      rcases List.mem_pair.mp member with first | second
      · exact ⟨12, by rw [first]⟩
      · exact ⟨15, by rw [second]⟩
    aligned := by decide
    addressable := by decide }

def lpc17xxLayout (dfuLength : Nat) : LinkLayout :=
  { flashStart := 0
    dfuLength := dfuLength
    textSize := 7168
    dataSize := 1024
    ramStart := 0x10000000 }

theorem lpc17xx_sector_above (dfuLength : Nat) (small : dfuLength ≤ 16384) :
    (lpc17xxLayout dfuLength).EndsBeforeLastSector lpc17xxGeometry := by
  refine ⟨24576, Or.inl ⟨6, by decide, by decide⟩, ?_⟩
  simp only [lpc17xxLayout, LinkLayout.imageSize]
  omega

theorem lpc17xx_without_dfu_spared :
    (lpc17xxLayout 0).Spared lpc17xxGeometry (referenceLibrary lpc17xxGeometry) 2048 := by
  have ends := lpc17xx_sector_above 0 (by decide)
  apply (firmware_spared_iff (lpc17xxLayout 0) lpc17xxGeometry (referenceLibrary lpc17xxGeometry)
    2048 (referenceLibrary_documented lpc17xxGeometry) ends).mpr
  refine ⟨by decide, ⟨12288, Or.inl ⟨3, by decide, by decide⟩, by decide⟩, ?_⟩
  intro start _ larger
  have noBootloader : (lpc17xxLayout 0).dfuLength = 0 := rfl
  omega

/-- With the bootloader of 16 KiB the test erases the sector at 12 KiB. -/
theorem lpc17xx_bootloader_erased :
    (lpc17xxLayout 16384).EndsBeforeLastSector lpc17xxGeometry ∧
      (referenceLibrary lpc17xxGeometry).Documented lpc17xxGeometry ∧
      ¬ (lpc17xxLayout 16384).Spared lpc17xxGeometry (referenceLibrary lpc17xxGeometry) 2048 := by
  refine ⟨lpc17xx_sector_above 16384 (by decide), referenceLibrary_documented _, ?_⟩
  intro spared
  obtain ⟨address, found, _, untouched⟩ := spared
  have chosen : address = 12288 := by
    have computed : findNearestRegion (referenceLibrary lpc17xxGeometry)
        (lpc17xxLayout 16384).symbols = some 12288 := by decide +kernel
    exact Option.some.inj (found.symm.trans computed)
  have above := spared_address_above 2048 address found
    (untouched Unit grantingInterface .flashSectorSize .flashEraseSector ())
  have below : ¬ (lpc17xxLayout 16384).dfuLength + (lpc17xxLayout 16384).imageSize ≤ 12288 := by
    decide
  rw [chosen] at above
  exact below above

end HalmExamples.FlashTest
