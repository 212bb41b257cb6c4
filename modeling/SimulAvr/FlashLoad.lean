import SimulAvr.Storage

/-!
# Loading a flash image

A new flash is filled with ones, and the words of a file are written to it, on a host that has
the low byte first.  A file of an odd length ends with a short read, which leaves the high byte of
the word as it was: the flash holds the file, and ones after it, exactly if the length is even or
that byte was 0xff (`flash_image_loaded_iff`).
-/

namespace SimulAvr

/-! ### The flash and the loop -/

/-- `storage_construct` -/
def storageConstruct (base size : Int) : Storage :=
  { base := base, size := size, data := fun _ => 0 }

/-- The loop of `flash_construct`, over the addresses `i, i + 1, …`, of which `n` are left -/
def flashFillOnes : (i : Int) → (n : Nat) → Flash → Except AvrError Flash
  | _, 0, flash => .ok flash
  | i, n + 1, flash => do
    let flash ← storageWriteb flash i 0xff
    flashFillOnes (i + 1) n flash

/-- `flash_construct` -/
def flashConstruct (size : Int) : Except AvrError Flash :=
  let base := 0
  flashFillOnes 0 size.toNat (storageConstruct base size)

/-- `flash_write` -/
def flashWrite (flash : Flash) (addr : Int) (val : Word) : Except AvrError Flash :=
  storageWritew flash (addr * 2) val

/-- The loop of `flash_load_from_bin_file`: each read puts as many bytes of the file as are left,
two at the most, into `inst`. -/
def flashLoadLoop : (file : List Byte) → (addr : Int) → (inst : Word) → Flash →
    Except AvrError Flash
  | [], _, _, flash => .ok flash
  | [low], addr, inst, flash =>
    -- a short read leaves the high byte
    let inst := inst.extractLsb' 8 8 ++ low
    flashWrite flash addr inst
  | low :: high :: file, addr, _, flash => do
    let inst := high ++ low
    let flash ← flashWrite flash addr inst
    flashLoadLoop file (addr + 1) inst flash

/-- `flash_load_from_bin_file`, with the value that `inst` has before the first read -/
def flashLoadFromBinFile (flash : Flash) (file : List Byte) (inst : Word) : Except AvrError Flash :=
  let addr := 0
  flashLoadLoop file addr inst flash

/-! ### What is written -/

/-- The bytes that the loop writes -/
def loadedBytes : (file : List Byte) → (inst : Word) → List Byte
  | [], _ => []
  | [low], inst => [low, inst.extractLsb' 8 8]
  | low :: high :: file, _ => low :: high :: loadedBytes file (high ++ low)

/-- The high byte of `inst` before the last read: that of the last word before it -/
def staleByte (file : List Byte) (inst : Word) : Byte :=
  if h : file.length < 2 then inst.extractLsb' 8 8 else file[file.length - 2]

theorem loadedBytes_eq
    (file : List Byte) (inst : Word) :
  loadedBytes file inst = file ++ if 2 ∣ file.length then [] else [staleByte file inst]
  := by
  induction file, inst using loadedBytes.induct with
  | case1 => rfl
  | case2 low inst => rfl
  | case3 inst low high file ih =>
    have hparity : 2 ∣ (low :: high :: file).length ↔ 2 ∣ file.length := by
      rw [List.length_cons, List.length_cons]
      omega
    rw [loadedBytes, ih]
    by_cases heven : 2 ∣ file.length
    · rw [if_pos heven, if_pos (hparity.mpr heven), List.append_nil, List.append_nil]
    · have hstale : staleByte (low :: high :: file) inst = staleByte file (high ++ low) := by
        rw [staleByte, dif_neg (by simp), staleByte]
        split
        · next hlt =>
          match file with
          | [] => contradiction
          | [b] => exact BitVec.extractLsb'_append_eq_left.symm
        · next hle =>
          have hindex : (low :: high :: file).length - 2 = file.length - 2 + 2 := by
            rw [List.length_cons, List.length_cons]
            omega
          simp only [hindex]
          rfl
      rw [if_neg heven, if_neg (hparity.not.mpr heven), hstale]
      rfl

/-- The loop writes the bytes, in a flash that has room for the words. -/
theorem flashLoadLoop_writes
    {flash : Flash} (hbase : flash.base = 0) {addr : Int} (haddr : 0 ≤ addr) (file : List Byte)
    (inst : Word) (hroom : 2 * addr + (loadedBytes file inst).length ≤ flash.size) :
  ∃ flash', flashLoadLoop file addr inst flash = .ok flash'
    ∧ flash'.byte = writeRange flash.byte (2 * addr) (loadedBytes file inst)
  := by
  induction file, inst using loadedBytes.induct generalizing flash addr with
  | case1 => exact ⟨flash, rfl, rfl⟩
  | case2 low inst =>
    rw [loadedBytes, List.length_cons, List.length_singleton] at hroom
    have hvalid : flash.Valid addr := by
      rw [Flash.Valid, hbase]
      omega
    refine ⟨_, Flash.storageWritew_of_valid hvalid _, ?_⟩
    rw [Flash.byte_setWord]
    rfl
  | case3 inst low high file ih =>
    rw [loadedBytes, List.length_cons, List.length_cons] at hroom
    have hvalid : flash.Valid addr := by
      rw [Flash.Valid, hbase]
      omega
    have hnext : 2 * (addr + 1) = 2 * addr + 1 + 1 := by omega
    have hrest : 2 * (addr + 1) + (loadedBytes file (high ++ low)).length
        ≤ (flash.setWord addr (high ++ low)).size := by
      push_cast at hroom
      change _ ≤ flash.size
      omega
    have hbase' : (flash.setWord addr (high ++ low)).base = 0 := hbase
    obtain ⟨flash', hload, hbyte⟩ := ih hbase' (by omega) hrest
    use flash'
    rw [flashLoadLoop, flashWrite, Flash.storageWritew_of_valid hvalid]
    use hload
    rw [hbyte, Flash.byte_setWord, hnext]
    rfl

/-! ### The new flash -/

theorem flashFillOnes_fills
    {flash : Flash} (hbase : flash.base = 0) {i : Int} (hi : 0 ≤ i) {n : Nat}
    (hn : i + n ≤ flash.size) :
  flashFillOnes i n flash
    = .ok { flash with data := writeRange flash.data i (List.replicate n 0xff) }
  := by
  induction n generalizing flash i with
  | zero => rfl
  | succ n ih =>
    have hin : ¬ (i - flash.base < 0 ∨ i - flash.base ≥ flash.size) := by
      rw [hbase]
      omega
    have hbase' : ({ flash with data := Function.update flash.data i 0xff } : Flash).base = 0 :=
      hbase
    have hrest := ih hbase' (by omega : 0 ≤ i + 1) (by push_cast at hn; change _ ≤ flash.size; omega)
    have hwrite : storageWriteb flash i 0xff
        = .ok { flash with data := Function.update flash.data i 0xff } := by
      rw [storageWriteb, if_neg hin, hbase, Int.sub_zero]
    rw [flashFillOnes, hwrite]
    exact hrest

/-- A new flash of whole words holds ones. -/
theorem flashConstruct_ones
    {size : Int} (hsize : 0 ≤ size) (heven : 2 ∣ size) :
  ∃ flash, flashConstruct size = .ok flash ∧ flash.base = 0 ∧ flash.size = size
    ∧ ∀ i, 0 ≤ i → i < size → flash.byte i = 0xff
  := by
  have hend : 0 + (size.toNat : Int) ≤ size := by omega
  have hbase : (storageConstruct 0 size).base = 0 := rfl
  have hfill := flashFillOnes_fills hbase (Int.le_refl 0) hend
  refine ⟨_, hfill, rfl, rfl, fun i hlow hhigh => ?_⟩
  have hindex : 0 ≤ Flash.byteIndex i ∧ Flash.byteIndex i < size := by
    rw [Flash.byteIndex]
    split <;> omega
  obtain ⟨k, hk⟩ := Int.eq_ofNat_of_zero_le hindex.1
  have hlt : k < (List.replicate size.toNat (0xff : Byte)).length := by
    rw [List.length_replicate]
    omega
  have hvalue := writeRange_add (fun _ => (0 : Byte)) 0 hlt
  rw [List.getElem_replicate, Int.zero_add] at hvalue
  change writeRange (fun _ => 0) 0 _ (Flash.byteIndex i - 0) = _
  rw [Int.sub_zero, hk]
  exact hvalue

/-! ### The image -/

/-- A file is loaded into a new flash: its bytes are those of the flash, and ones follow. -/
def ImageLoaded (size : Int) (file : List Byte) (inst : Word) : Prop :=
  ∃ flash flash', flashConstruct size = .ok flash
    ∧ flashLoadFromBinFile flash file inst = .ok flash'
    ∧ (∀ (i : Nat) (h : i < file.length), flash'.byte i = file[i])
    ∧ ∀ i : Int, file.length ≤ i → i < size → flash'.byte i = 0xff

/-- A file that fits into a flash of whole words is loaded exactly if its length is even, or the
high byte that the short read leaves is 0xff. -/
theorem flash_image_loaded_iff
    {size : Int} (hsize : 0 ≤ size) (heven : 2 ∣ size) (file : List Byte)
    (hfile : file.length ≤ size) (inst : Word) :
  ImageLoaded size file inst ↔ 2 ∣ file.length ∨ staleByte file inst = 0xff
  := by
  obtain ⟨flash, hnew, hbase, hflash, hones⟩ := flashConstruct_ones hsize heven
  have hbytes := loadedBytes_eq file inst
  have hroom : 2 * 0 + ((loadedBytes file inst).length : Int) ≤ flash.size := by
    rw [hbytes, hflash, List.length_append]
    split
    · rw [List.length_nil]
      omega
    · rw [List.length_singleton]
      omega
  obtain ⟨flash', hload, hbyte⟩ := flashLoadLoop_writes hbase (Int.le_refl 0) file inst hroom
  have hloaded (i : Nat) (h : i < (loadedBytes file inst).length) :
      flash'.byte i = (loadedBytes file inst)[i] := by
    have hvalue := writeRange_add flash.byte 0 h
    rw [Int.zero_add] at hvalue
    rw [hbyte, Int.mul_zero, hvalue]
  have hprefix (i : Nat) (h : i < file.length) : flash'.byte i = file[i] := by
    have hlt : i < (loadedBytes file inst).length := by
      rw [hbytes, List.length_append]
      omega
    rw [hloaded i hlt]
    simp only [hbytes, List.getElem_append_left h]
  have hrest (i : Int) (h : (loadedBytes file inst).length ≤ i) (hi : i < size) :
      flash'.byte i = 0xff := by
    rw [hbyte, writeRange_of_not_mem (by omega), hones i (by omega) hi]
  by_cases hparity : 2 ∣ file.length
  · rw [if_pos hparity, List.append_nil] at hbytes
    rw [hbytes] at hrest
    refine ⟨fun _ => .inl hparity, fun _ => ?_⟩
    exact ⟨flash, flash', hnew, hload, hprefix, hrest⟩
  · -- the byte after the file is the one that the short read leaves
    rw [if_neg hparity] at hbytes
    have hlength : (loadedBytes file inst).length = file.length + 1 := by
      rw [hbytes, List.length_append, List.length_singleton]
    have hstale : flash'.byte file.length = staleByte file inst := by
      rw [hloaded file.length (by omega)]
      simp only [hbytes, List.getElem_concat_length]
    constructor
    · rintro ⟨f, f', hf, hf', -, hafter⟩
      rw [hnew] at hf
      obtain rfl := Except.ok.inj hf
      rw [flashLoadFromBinFile, hload] at hf'
      obtain rfl := Except.ok.inj hf'
      rw [← hstale]
      exact .inr (hafter file.length (Int.le_refl _) (by omega))
    · rintro (heven | hff)
      · exact absurd heven hparity
      · refine ⟨flash, flash', hnew, hload, hprefix, fun i hlow hhigh => ?_⟩
        rcases Int.lt_or_eq_of_le hlow with hlt | rfl
        · exact hrest i (by omega) hhigh
        · rw [hstale, hff]

/-- A file of two words, in a flash of four -/
theorem flash_image_loaded_words :
  ImageLoaded 8 [0x0c, 0x94, 0x34, 0x00] 0
  := (flash_image_loaded_iff (by decide) (by decide) _ (by decide) 0).mpr (.inl (by decide))

/-- A file of three bytes puts its second byte also after its last one. -/
theorem flash_image_loaded_short :
  ¬ ImageLoaded 8 [0x0c, 0x94, 0x34] 0
  := by
  rintro ⟨flash, flash', hnew, hload, -, hafter⟩
  obtain ⟨flash₀, hnew₀, hbase, hflash, -⟩ := flashConstruct_ones (by decide : (0 : Int) ≤ 8)
    (by decide)
  rw [hnew₀] at hnew
  obtain rfl := Except.ok.inj hnew
  obtain ⟨flash₁, hload₁, hbyte⟩ := flashLoadLoop_writes hbase (Int.le_refl 0) [0x0c, 0x94, 0x34] 0
    (by rw [hflash]; decide)
  rw [flashLoadFromBinFile, hload₁] at hload
  obtain rfl := Except.ok.inj hload
  have hlast := hafter 3 (by decide) (by decide)
  rw [hbyte] at hlast
  have hvalue : writeRange flash₀.byte 0 (loadedBytes [0x0c, 0x94, 0x34] 0) (0 + (3 : Nat))
      = 0x94 := writeRange_add _ _ (by decide)
  exact absurd (hvalue.symm.trans hlast) (by decide)

end SimulAvr
