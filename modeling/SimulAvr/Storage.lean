import SimulAvr.Basic
import SimulAvr.Lib.Ranges

/-!
# Storage

A `Storage` is an array of bytes that starts at a base address; the flash memory is one
that is read and written a word at a time, the high byte of word `addr` at `2 * addr`.
-/

namespace SimulAvr

/-- `Storage` -/
structure Storage where
  /-- address -/
  base : Int
  /-- bytes -/
  size : Int
  data : Int → Byte
  deriving Inhabited

/-- `storage_readb` -/
def storageReadb (stor : Storage) (addr : Int) : Except AvrError Byte :=
  let _addr := addr - stor.base
  if _addr < 0 ∨ _addr ≥ stor.size then
    .error (.message "address out of bounds: 0x%x" [addr])
  else
    .ok (stor.data _addr)

/-- `storage_readw` -/
def storageReadw (stor : Storage) (addr : Int) : Except AvrError Word :=
  let _addr := addr - stor.base
  if _addr < 0 ∨ _addr ≥ stor.size then
    .error (.message "address out of bounds: 0x%x" [addr])
  else
    let bh := stor.data _addr
    let bl := stor.data (_addr + 1)
    .ok (bh ++ bl)

/-- `storage_writeb` -/
def storageWriteb (stor : Storage) (addr : Int) (val : Byte) : Except AvrError Storage :=
  let _addr := addr - stor.base
  if _addr < 0 ∨ _addr ≥ stor.size then
    .error (.message "address out of bounds: 0x%x" [addr])
  else
    .ok { stor with data := Function.update stor.data _addr val }

/-- `storage_writew` -/
def storageWritew (stor : Storage) (addr : Int) (val : Word) : Except AvrError Storage :=
  let _addr := addr - stor.base
  if _addr < 0 ∨ _addr ≥ stor.size then
    .error (.message "address out of bounds: 0x%x" [addr])
  else
    let data := Function.update stor.data _addr (val.extractLsb' 8 8)
    .ok { stor with data := Function.update data (_addr + 1) (val.extractLsb' 0 8) }

/-- `Flash` -/
abbrev Flash : Type := Storage

/-- `flash_read` -/
def flashRead (flash : Flash) (addr : Int) : Except AvrError Word :=
  storageReadw flash (addr * 2)

/-! ### The range of a storage -/

/-- A write of a byte leaves the range. -/
theorem storageWriteb_shape
    {stor stor' : Storage} {addr : Int} {val : Byte} (h : storageWriteb stor addr val = .ok stor') :
  stor'.base = stor.base ∧ stor'.size = stor.size
  := by
  rw [storageWriteb] at h
  split at h
  · contradiction
  · obtain rfl := Except.ok.inj h
    exact ⟨rfl, rfl⟩

/-- A write of a word leaves the range. -/
theorem storageWritew_shape
    {stor stor' : Storage} {addr : Int} {val : Word} (h : storageWritew stor addr val = .ok stor') :
  stor'.base = stor.base ∧ stor'.size = stor.size
  := by
  rw [storageWritew] at h
  split at h
  · contradiction
  · obtain rfl := Except.ok.inj h
    exact ⟨rfl, rfl⟩

/-! ### The words of a flash -/

/-- A word is made of its bytes. -/
theorem extractLsb'_append_self
    (val : Word) :
  val.extractLsb' 8 8 ++ val.extractLsb' 0 8 = val
  := by
  rw [BitVec.extractLsb'_append_extractLsb'_eq_extractLsb' (by rfl)]
  apply BitVec.extractLsb'_eq_self

namespace Flash

/-- The flash has a word at `addr`. -/
def Valid (flash : Flash) (addr : Int) : Prop :=
  0 ≤ addr * 2 - flash.base ∧ addr * 2 - flash.base < flash.size

instance (flash : Flash) (addr : Int) : Decidable (flash.Valid addr) :=
  inferInstanceAs (Decidable (_ ∧ _))

/-- The word at `addr`. -/
def word (flash : Flash) (addr : Int) : Word :=
  flash.data (addr * 2 - flash.base) ++ flash.data (addr * 2 - flash.base + 1)

/-- The flash with the word `val` at `addr`. -/
def setWord (flash : Flash) (addr : Int) (val : Word) : Flash :=
  let data := Function.update flash.data (addr * 2 - flash.base) (val.extractLsb' 8 8)
  { flash with data := Function.update data (addr * 2 - flash.base + 1) (val.extractLsb' 0 8) }

section

variable {flash flash' : Flash} {addr : Int}

theorem flashRead_of_valid
    (h : flash.Valid addr) :
  flashRead flash addr = .ok (flash.word addr)
  := by
  obtain ⟨hlow, hhigh⟩ := h
  apply if_neg
  omega

theorem flashRead_of_not_valid
    (h : ¬ flash.Valid addr) :
  flashRead flash addr = .error (.message "address out of bounds: 0x%x" [addr * 2])
  := by
  rw [Valid] at h
  apply if_pos
  omega

theorem valid_of_flashRead
    {val : Word} (h : flashRead flash addr = .ok val) :
  flash.Valid addr ∧ val = flash.word addr
  := by
  by_cases hvalid : flash.Valid addr
  · rw [flashRead_of_valid hvalid] at h
    cases h
    exact ⟨hvalid, rfl⟩
  · rw [flashRead_of_not_valid hvalid] at h
    contradiction

theorem storageWritew_of_valid
    (h : flash.Valid addr) (val : Word) :
  storageWritew flash (addr * 2) val = .ok (flash.setWord addr val)
  := by
  obtain ⟨hlow, hhigh⟩ := h
  apply if_neg
  omega

theorem storageWritew_of_not_valid
    (h : ¬ flash.Valid addr) (val : Word) :
  storageWritew flash (addr * 2) val = .error (.message "address out of bounds: 0x%x" [addr * 2])
  := by
  rw [Valid] at h
  apply if_pos
  omega

@[simp]
theorem valid_setWord
    (flash : Flash) (addr a : Int) (val : Word) :
  (flash.setWord addr val).Valid a ↔ flash.Valid a
  := Iff.rfl

@[simp]
theorem word_setWord_same
    (flash : Flash) (addr : Int) (val : Word) :
  (flash.setWord addr val).word addr = val
  := by
  have hne : addr * 2 - flash.base ≠ addr * 2 - flash.base + 1 := by omega
  simp only [word, setWord, Function.update_self, Function.update_of_ne hne]
  apply extractLsb'_append_self

theorem word_setWord_of_ne
    {a : Int} (h : a ≠ addr) (flash : Flash) (val : Word) :
  (flash.setWord addr val).word a = flash.word a
  := by
  simp only [word, setWord]
  congr 1
  · rw [Function.update_of_ne (by omega), Function.update_of_ne (by omega)]
  · rw [Function.update_of_ne (by omega), Function.update_of_ne (by omega)]

/-- A flash is given by its extent and its words. -/
theorem ext_word
    (hbase : flash.base = flash'.base) (hsize : flash.size = flash'.size)
    (hword : ∀ addr, flash.word addr = flash'.word addr) :
  flash = flash'
  := by
  obtain ⟨base, size, data⟩ := flash
  obtain ⟨base', size', data'⟩ := flash'
  cases hbase
  cases hsize
  congr 1
  funext i
  have hw := hword ((i + base) / 2)
  simp only [word] at hw
  rcases Int.emod_two_eq (i + base) with heven | hodd
  · have hi : (i + base) / 2 * 2 - base = i := by omega
    have hhigh := congrArg (fun w => BitVec.extractLsb' 8 8 w) hw
    simp only [BitVec.extractLsb'_append_eq_left, hi] at hhigh
    apply hhigh
  · have hi : (i + base) / 2 * 2 - base + 1 = i := by omega
    have hlow := congrArg (fun w => BitVec.extractLsb' 0 8 w) hw
    simp only [BitVec.extractLsb'_append_eq_right, hi] at hlow
    apply hlow

/-- Writing the word that is there changes nothing. -/
theorem setWord_self
    (flash : Flash) (addr : Int) :
  flash.setWord addr (flash.word addr) = flash
  := by
  apply ext_word
  · rfl
  · rfl
  intro a
  by_cases h : a = addr
  · rw [h, word_setWord_same]
  · rw [word_setWord_of_ne h]

/-- The second of two writes to a word counts. -/
theorem setWord_setWord
    (flash : Flash) (addr : Int) (val val' : Word) :
  (flash.setWord addr val).setWord addr val' = flash.setWord addr val'
  := by
  apply ext_word
  · rfl
  · rfl
  intro a
  by_cases h : a = addr
  · rw [h, word_setWord_same, word_setWord_same]
  · rw [word_setWord_of_ne h, word_setWord_of_ne h, word_setWord_of_ne h]

/-- Writes to two words commute. -/
theorem setWord_comm
    {addr' : Int} (h : addr ≠ addr') (flash : Flash) (val val' : Word) :
  (flash.setWord addr val).setWord addr' val' = (flash.setWord addr' val').setWord addr val
  := by
  apply ext_word
  · rfl
  · rfl
  intro a
  by_cases ha : a = addr
  · rw [ha, word_setWord_of_ne h, word_setWord_same, word_setWord_same]
  · by_cases ha' : a = addr'
    · rw [ha', word_setWord_same, word_setWord_of_ne h.symm, word_setWord_same]
    · rw [word_setWord_of_ne ha', word_setWord_of_ne ha, word_setWord_of_ne ha,
        word_setWord_of_ne ha']

/-- The words of a flash after a write. -/
theorem word_setWord
    (flash : Flash) (addr : Int) (val : Word) :
  (flash.setWord addr val).word = Function.update flash.word addr val
  := by
  funext a
  by_cases h : a = addr
  · rw [h, word_setWord_same, Function.update_self]
  · rw [word_setWord_of_ne h, Function.update_of_ne h]

end

/-! ### The bytes of a flash -/

/-- The place in the array of the byte at `addr`, where the low byte of a word comes
first. -/
def byteIndex (addr : Int) : Int :=
  if addr % 2 = 0 then addr + 1 else addr - 1

/-- The byte at `addr`. -/
def byte (flash : Flash) (addr : Int) : Byte :=
  flash.data (byteIndex addr - flash.base)

/-- The flash with the byte `val` at `addr`. -/
def setByte (flash : Flash) (addr : Int) (val : Byte) : Flash :=
  { flash with data := Function.update flash.data (byteIndex addr - flash.base) val }

section

variable {flash flash' : Flash} {addr : Int}

theorem byteIndex_inj
    {a b : Int} (h : byteIndex a = byteIndex b) :
  a = b
  := by
  rw [byteIndex, byteIndex] at h
  split at h <;> split at h <;> omega

@[simp]
theorem byte_setByte_same
    (flash : Flash) (addr : Int) (val : Byte) :
  (flash.setByte addr val).byte addr = val
  := Function.update_self _ _ _

theorem byte_setByte_of_ne
    {a : Int} (h : a ≠ addr) (flash : Flash) (val : Byte) :
  (flash.setByte addr val).byte a = flash.byte a
  := by
  apply Function.update_of_ne
  intro heq
  apply h
  apply byteIndex_inj
  change byteIndex a - flash.base = byteIndex addr - flash.base at heq
  omega

@[simp]
theorem valid_setByte
    (flash : Flash) (addr a : Int) (val : Byte) :
  (flash.setByte addr val).Valid a ↔ flash.Valid a
  := Iff.rfl

theorem wordIndex_add_one
    (flash : Flash) (addr : Int) :
  addr * 2 - flash.base + 1 = addr * 2 + 1 - flash.base
  := by
  omega

theorem byteIndex_even
    (addr : Int) :
  byteIndex (2 * addr) = addr * 2 + 1
  := by
  rw [byteIndex, if_pos (by omega)]
  omega

theorem byteIndex_odd
    (addr : Int) :
  byteIndex (2 * addr + 1) = addr * 2
  := by
  rw [byteIndex, if_neg (by omega)]
  omega

/-- The bytes of a word. -/
theorem word_eq
    (flash : Flash) (addr : Int) :
  flash.word addr = flash.byte (2 * addr + 1) ++ flash.byte (2 * addr)
  := by
  rw [word, byte, byte, byteIndex_even, byteIndex_odd, wordIndex_add_one]

/-- Writing a word writes its bytes. -/
theorem setWord_eq
    (flash : Flash) (addr : Int) (val : Word) :
  flash.setWord addr val =
    (flash.setByte (2 * addr + 1) (val.extractLsb' 8 8)).setByte (2 * addr) (val.extractLsb' 0 8)
  := by
  simp only [setWord, setByte, byteIndex_even, byteIndex_odd, wordIndex_add_one]

/-- A byte written to a flash. -/
theorem byte_setByte
    (flash : Flash) (addr : Int) (val : Byte) :
  (flash.setByte addr val).byte = writeRange flash.byte addr [val]
  := by
  funext a
  rw [writeRange, writeRange]
  by_cases h : a = addr
  · rw [h, byte_setByte_same, Function.update_self]
  · rw [byte_setByte_of_ne h, Function.update_of_ne h]

/-- A word written to a flash, as its two bytes. -/
theorem byte_setWord
    (flash : Flash) (w : Int) (low high : Byte) :
  (flash.setWord w (high ++ low)).byte = writeRange flash.byte (2 * w) [low, high]
  := by
  have hlow : (high ++ low).extractLsb' 0 8 = low := BitVec.extractLsb'_append_eq_right
  have hhigh : (high ++ low).extractLsb' 8 8 = high := BitVec.extractLsb'_append_eq_left
  rw [setWord_eq, hlow, hhigh, byte_setByte, byte_setByte, writeRange, writeRange, writeRange,
    writeRange, writeRange, writeRange, writeRange, Function.update_comm (by omega)]

/-- A byte written to a word changes no other word. -/
theorem word_setByte
    (flash : Flash) (addr : Int) (val : Byte) :
  (flash.setByte addr val).word =
    Function.update flash.word (addr / 2) ((flash.setByte addr val).word (addr / 2))
  := by
  funext a
  by_cases h : a = addr / 2
  · rw [h, Function.update_self]
  · rw [Function.update_of_ne h, word_eq, word_eq, byte_setByte_of_ne (by omega),
      byte_setByte_of_ne (by omega)]

/-- A byte written to two flashes that agree at its word. -/
theorem word_setByte_congr
    (h : flash.word (addr / 2) = flash'.word (addr / 2)) (val : Byte) :
  (flash.setByte addr val).word (addr / 2) = (flash'.setByte addr val).word (addr / 2)
  := by
  rw [word_eq, word_eq] at h
  have hhigh := congrArg (fun w => BitVec.extractLsb' 8 8 w) h
  have hlow := congrArg (fun w => BitVec.extractLsb' 0 8 w) h
  simp only [BitVec.extractLsb'_append_eq_left, BitVec.extractLsb'_append_eq_right] at hhigh hlow
  rw [word_eq, word_eq]
  rcases Int.emod_two_eq addr with heven | hodd
  · rw [show 2 * (addr / 2) = addr by omega] at hhigh ⊢
    rw [byte_setByte_same, byte_setByte_same, byte_setByte_of_ne (by omega),
      byte_setByte_of_ne (by omega), hhigh]
  · rw [show 2 * (addr / 2) + 1 = addr by omega, byte_setByte_same, byte_setByte_same,
      byte_setByte_of_ne (by omega), byte_setByte_of_ne (by omega), hlow]

/-- `flash_write_lo8` writes the byte at the even address of a word. -/
theorem storageWriteb_low
    (h : 0 ≤ addr * 2 + 1 - flash.base ∧ addr * 2 + 1 - flash.base < flash.size) (val : Byte) :
  storageWriteb flash (addr * 2 + 1) val = .ok (flash.setByte (2 * addr) val)
  := by
  rw [storageWriteb, if_neg (by omega), setByte, byteIndex_even]

/-- `flash_write_hi8` writes the byte at the odd address of a word. -/
theorem storageWriteb_high
    (h : flash.Valid addr) (val : Byte) :
  storageWriteb flash (addr * 2) val = .ok (flash.setByte (2 * addr + 1) val)
  := by
  obtain ⟨hlow, hhigh⟩ := h
  rw [storageWriteb, if_neg (by omega), setByte, byteIndex_odd]

end

end Flash

end SimulAvr
