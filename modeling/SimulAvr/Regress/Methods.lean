import SimulAvr.Regress.Server

/-!
# What the methods of the client do

A program of the client performs an operation on the core where it gets to its end by calls of the
server, from every server that is ready to one that is ready with the core after the operation.
The methods perform the operations they are named after: they read and write the registers and the
bytes of the core, set its breakpoints, step it and reset it.
-/

namespace SimulAvr

open Program Exchange

/-! ### Reading replies -/

/-- The client reads a text up to the end of its frame. -/
theorem reads_rspRecvLoop
    {s : List Char} {maxBuf : Nat} (hplain : Plain s) (hlen : s.length < maxBuf) :
  Process.Reads (rspRecvLoop maxBuf) (s.map charByte ++ [Framing.endMark]) (.ret s)
  := by
  induction s generalizing maxBuf with
  | nil =>
    obtain ⟨n, rfl⟩ := Nat.exists_eq_add_one_of_ne_zero (Nat.ne_of_gt hlen)
    apply Process.Reads.cons
    apply Process.Reads.nil
  | cons ch s ih =>
    obtain ⟨n, rfl⟩ := Nat.exists_eq_add_one_of_ne_zero (Nat.ne_of_gt (Nat.zero_lt_of_lt hlen))
    obtain ⟨⟨hch, hne⟩, hs⟩ := List.forall_mem_cons.mp hplain
    rw [List.length_cons, Nat.add_lt_add_iff_right] at hlen
    apply Process.Reads.cons
    change Process.Reads (if byteChar (charByte ch) = '#' then _ else _ : ClientM (List Char)) _ _
    rw [byteChar_charByte hch, if_neg hne]
    have hread := (ih hs hlen).bind fun pkt => Process.ret (ch :: pkt)
    exact hread

/-- The checksum of a frame as the client reads it -/
theorem int16_digits :
  ∀ b : Byte, int16 [byteChar (Framing.digit (b >>> 4)), byteChar (Framing.digit (b &&& 0xf#8))]
    = some b.toNat
  := by
  decide +kernel

/-- The client receives the payload of a frame. -/
theorem reads_rspRecv
    {s : List Char} (hplain : Plain s) (hlen : s.length ≤ 395) :
  Process.Reads rspRecv (Framing.frame (s.map charByte)) (.ret (some s))
  := by
  have hbody : Framing.body (s.map charByte) = (s.map charByte ++ [Framing.endMark])
      ++ [Framing.digit (Framing.checksum (s.map charByte) >>> 4),
        Framing.digit (Framing.checksum (s.map charByte) &&& 0xf#8)] := by
    rw [Framing.body, List.append_assoc]
    rfl
  have hloop := reads_rspRecvLoop hplain (by omega : s.length < 400)
  rw [Framing.frame, hbody]
  apply Process.Reads.cons
  apply (hloop.bind _).append
  apply Process.Reads.cons
  apply Process.Reads.cons
  change Process.Reads (Process.bind (orRaise (int16 _)) _) _ _
  rw [int16_digits]
  change Process.Reads (if cksum s ≠ _ then _ else _ : ClientM (Option (List Char))) _ _
  rw [checksum_map hplain, if_neg (not_not.mpr rfl)]
  apply Process.Reads.nil

/-- The client receives a reply that is no output. -/
theorem reads_handleReply
    {ch : Char} {s : List Char} (hplain : Plain (ch :: s)) (hlen : (ch :: s).length ≤ 395)
    (hch : ch ≠ 'O') (limit : Nat) :
  Process.Reads (handleReply (limit + 1)) (Framing.frame ((ch :: s).map charByte))
    (.ret (ch :: s))
  := by
  have hread := (reads_rspRecv hplain hlen).bind fun reply => do
    let reply ← orRaise reply
    let c ← orRaise reply.head?
    if c ≠ 'O' then
      return reply
    handleReply limit
  have hreply : (Process.bind (.ret (some (ch :: s))) fun reply => do
      let reply ← orRaise reply
      let c ← orRaise reply.head?
      if c ≠ 'O' then
        return reply
      handleReply limit : ClientM (List Char)) = .ret (ch :: s) := if_pos hch
  rw [hreply] at hread
  exact hread

/-! ### Operations of the server -/

section

variable {δ : Type} [IoDevices δ] (cellName : Int → Option (List Char)) {α β : Type}

/-- The program gets to its end by calls, and leads from a core to another one. -/
def Performs (c : AvrCore δ) (p : ClientM α) (c' : AvrCore δ) (a : α) : Prop :=
  ∀ l, Ready l c → ∃ n l', Calls (gdbServe cellName) n l p l' (.ret a) ∧ Ready l' c'

variable {cellName} {c c' c₁ : AvrCore δ} {p : ClientM α} {a : α}

namespace Performs

theorem pure
    (c : AvrCore δ) (a : α) :
  Performs cellName c (.ret a) c a
  := fun l hl => ⟨0, l, .nil l _, hl⟩

theorem bind
    {k : α → ClientM β} {b : β} (h : Performs cellName c p c₁ a)
    (h' : Performs cellName c₁ (k a) c' b) :
  Performs cellName c (p.bind k) c' b
  := by
  intro l hl
  obtain ⟨m, l₁, hp, hl₁⟩ := h l hl
  obtain ⟨n, l', hk, hl'⟩ := h' l₁ hl₁
  exact ⟨m + n, l', (hp.bind k).append hk, hl'⟩

/-- A value that a program of the client has at hand -/
theorem orRaise
    {x : Option α} (hx : x = some a) {k : α → ClientM β} {b : β} (h : Performs cellName c (k a) c' b) :
  Performs cellName c ((SimulAvr.orRaise x).bind k) c' b
  := by
  rw [hx]
  exact h

end Performs

/-- A packet, and a program that reads the reply -/
theorem performs_send
    {msg : List Char} (hplain : Plain msg) {output : List Byte}
    (hanswers : ∀ l : Connection δ, Ready l c → ∃ n l',
      Answers (gdbServe cellName) n l (Framing.frame (msg.map charByte)) (charByte '+' :: output) l'
        ∧ Ready l' c')
    (hreads : Process.Reads p output (.ret a)) :
  Performs cellName c (Process.bind (rspSend msg) fun _ => p) c' a
  := by
  intro l hl
  obtain ⟨n, l', hanswer, hl'⟩ := hanswers l hl
  have hack : Process.Reads (Process.recv fun b =>
      Process.bind (if byteChar b ≠ '+' then .fail (.errReply [byteChar b]) else .ret ())
        fun _ => p) (charByte '+' :: output) (.ret a) := by
    apply Process.Reads.cons
    have hplus : byteChar (charByte '+') = '+' := rfl
    rw [hplus, if_neg (not_not.mpr rfl)]
    exact hreads
  have hcalls := (Calls.nil l' (Process.ret a)).cons hanswer hack
  rw [← map_charByte_frame hplain] at hcalls
  exact ⟨_, l', hcalls, hl'⟩

/-- A packet with a reply -/
theorem performs_reply
    {msg text : List Char} (hplain : Plain msg) (hlen : msg.length ≤ maxBuf)
    (hparse : (gdbParsePacket cellName false msg).run c = .ok (.reply text, c'))
    (htext : Plain text) (htextlen : text.length ≤ 395) :
  Performs cellName c (Process.bind (rspSend msg) fun _ => rspRecv) c' (some text)
  := by
  apply performs_send hplain _ (reads_rspRecv htext htextlen)
  intro l hl
  exact ⟨1, answers_reply hl hplain hlen hparse htextlen⟩

omit [IoDevices δ] in
theorem run_handledReply
    {m : CoreM δ (List Char)} {text : List Char} (h : m.run c = .ok (text, c')) :
  (do return Handled.reply (← m) : CoreM δ Handled).run c = .ok (.reply text, c')
  := by
  rw [run_bind_of_ok h]
  rfl

theorem performs_rspCall
    {msg text : List Char} (hplain : Plain msg) (hlen : msg.length ≤ maxBuf)
    (hparse : (gdbParsePacket cellName false msg).run c = .ok (.reply text, c'))
    (htext : Plain text) (htextlen : text.length ≤ 395) :
  Performs cellName c (rspCall msg) c' text
  := by
  have hreply := (performs_reply hplain hlen hparse htext htextlen).bind
    (k := orRaise) (Performs.pure c' text)
  rw [Process.bind_assoc] at hreply
  exact hreply

theorem performs_rspCommand
    {msg : List Char} (hplain : Plain msg) (hlen : msg.length ≤ maxBuf)
    (hparse : (gdbParsePacket cellName false msg).run c = .ok (.reply "OK".toList, c')) :
  Performs cellName c (rspCommand msg) c' ()
  := by
  have htext : Plain "OK".toList := by
    decide
  have hreply := (performs_reply hplain hlen hparse htext (by decide)).bind
    (k := fun reply => if reply ≠ some "OK".toList then .fail (.errReply []) else .ret ())
    (Performs.pure c' ())
  rw [Process.bind_assoc] at hreply
  exact hreply

/-! ### Registers -/

omit [IoDevices δ] in
theorem plain_allText
    (f : RegFile) :
  Plain f.allText ∧ f.allText.length = 78
  := by
  rw [← bin2str_allText, bin2str_eq]
  constructor
  · apply plain_flatMap_hexByte
  · rw [length_flatMap_hexByte, flatMap_bytes, List.length_append, List.length_map,
      List.length_finRange]
    rfl

/-- `read_regs` reads the registers. -/
theorem performs_readRegs
    (h : HasGdbSp c) :
  Performs cellName c readRegs c c.regFile.regs
  := by
  obtain ⟨hplain, hlen⟩ := plain_allText c.regFile
  have hparse : (gdbParsePacket cellName false "g".toList).run c
      = .ok (.reply c.regFile.allText, c) := by
    apply run_handledReply (run_gdbReadRegisters h)
  have hmsg : Plain "g".toList := by
    decide
  have hbin : str2bin c.regFile.allText = some ((List.finRange 35).flatMap c.regFile.bytes) := by
    rw [← bin2str_allText, bin2str_eq, str2bin_hexByte]
  apply (performs_rspCall hmsg (by decide) hparse hplain (by omega)).bind
  apply Performs.orRaise hbin
  rw [unpackRegs_eq]
  apply Performs.pure

variable (cellName) in
/-- `write_regs` sets the registers, with PC inside of the flash. -/
theorem performs_writeRegs
    (h : HasGdbSp c) {r : Regs} (hr : r.Valid) (hpc : (RegFile.ofRegs r).pc < c.pcMax) :
  ∃ display, Performs cellName c (writeRegs r) (c.withRegFile (RegFile.ofRegs r) display) ()
  := by
  have hbound : r Reg.PC < 2 ^ 32 := hr.bound Reg.PC
  have hval : (RegFile.ofRegs r).pc = (r Reg.PC / 2 : Nat) := rfl
  have hf : (RegFile.ofRegs r).InFlash c := ⟨by omega, hpc, by omega⟩
  obtain ⟨display, hwrite⟩ := run_gdbWriteRegisters h hf
  obtain ⟨hplain, hlen⟩ := plain_allText (RegFile.ofRegs r)
  have hparse : (gdbParsePacket cellName false ('G' :: (RegFile.ofRegs r).allText)).run c
      = .ok (.reply "OK".toList, c.withRegFile (RegFile.ofRegs r) display) := by
    apply run_handledReply hwrite
  use display
  apply Performs.orRaise (packRegs_eq hr)
  rw [bin2str_allText]
  apply performs_rspCommand (plain_cons (by decide) hplain) _ hparse
  rw [List.length_cons, hlen]
  decide

omit [IoDevices δ] in
theorem foldl_reverse_leValue
    (bytes : List Byte) :
  bytes.reverse.foldl (fun n b => n * 2 ^ 8 + b.toNat) 0 = leValue bytes
  := by
  rw [List.foldl_reverse, leValue]
  congr 1
  funext b n
  omega

/-- `read_reg` reads one register. -/
theorem performs_readReg
    (h : HasGdbSp c) (reg : Fin 35) :
  Performs cellName c (readReg reg) c (c.regFile.regs reg)
  := by
  have hread := run_gdbReadRegister h reg (hexValue_formatHex reg) (length_formatHex (by omega))
  have hparse : (gdbParsePacket cellName false ('p' :: formatHex reg)).run c
      = .ok (.reply (c.regFile.text reg), c) := by
    apply run_handledReply hread
  have hbytes := c.regFile.length_bytes reg
  have hlen : (c.regFile.text reg).length = 2 * regSize reg := by
    rw [RegFile.text, length_flatMap_hexByte, hbytes]
  have hsize : regSize reg ≤ 4 := by
    rw [regSize]
    split_ifs <;> decide
  have hmsg := length_formatHex (n := reg) (by omega)
  have hmax : maxBuf = 400 := rfl
  apply (performs_rspCall (plain_cons (by decide) (plain_formatHex reg)) _ hparse
    (plain_flatMap_hexByte _) (by omega)).bind
  · apply Performs.orRaise (str2bin_hexByte _)
    rw [if_pos hbytes, foldl_reverse_leValue]
    apply Performs.pure
  · rw [List.length_cons]
    omega

/-- The registers of which one has a value -/
def oneReg (reg : Fin 35) (val : Nat) : Regs :=
  Function.update (fun _ => 0) reg val

omit [IoDevices δ] in
theorem oneReg_valid
    {reg : Fin 35} {val : Nat} (hval : val < 2 ^ (8 * regSize reg))
    (heven : reg = Reg.PC → val % 2 = 0) :
  (oneReg reg val).Valid
  := by
  constructor
  · intro reg'
    by_cases hreg : reg' = reg
    · subst hreg
      rw [oneReg, Function.update_self]
      exact hval
    · rw [oneReg, Function.update_of_ne hreg]
      exact Nat.two_pow_pos _
  · by_cases hreg : Reg.PC = reg
    · subst hreg
      rw [oneReg, Function.update_self]
      exact heven rfl
    · rw [oneReg, Function.update_of_ne hreg]

variable (cellName) in
/-- `write_reg` sets one register, PC to an address inside of the flash. -/
theorem performs_writeReg
    (h : HasGdbSp c) {reg : Fin 35} {val : Nat} (hval : val < 2 ^ (8 * regSize reg))
    (heven : reg = Reg.PC → val % 2 = 0) (hpc : (RegFile.ofRegs (oneReg reg val)).pc < c.pcMax) :
  ∃ display, Performs cellName c (writeReg reg val)
    (c.withRegFile (c.regFile.set reg (RegFile.ofRegs (oneReg reg val))) display) ()
  := by
  have hvalid := oneReg_valid hval heven
  have hbound : oneReg reg val Reg.PC < 2 ^ 32 := hvalid.bound Reg.PC
  have hpcval : (RegFile.ofRegs (oneReg reg val)).pc = (oneReg reg val Reg.PC / 2 : Nat) := rfl
  have hf : (RegFile.ofRegs (oneReg reg val)).InFlash c := ⟨by omega, hpc, by omega⟩
  have hnumlen := length_formatHex (n := reg) (by omega)
  obtain ⟨display, hwrite⟩ := run_gdbWriteRegister h hf reg (hexValue_formatHex reg) hnumlen
  have hparse : (gdbParsePacket cellName false ('P' :: (formatHex reg ++
      '=' :: (RegFile.ofRegs (oneReg reg val)).text reg))).run c = .ok (.reply "OK".toList,
        c.withRegFile (c.regFile.set reg (RegFile.ofRegs (oneReg reg val))) display) := by
    apply run_handledReply hwrite
  have hpack : packReg reg val = some ((RegFile.ofRegs (oneReg reg val)).bytes reg) := by
    rw [← hvalid.packReg_eq reg, oneReg, Function.update_self]
  have hsize : regSize reg ≤ 4 := by
    rw [regSize]
    split_ifs <;> decide
  have hlen : ((RegFile.ofRegs (oneReg reg val)).text reg).length = 2 * regSize reg := by
    rw [RegFile.text, length_flatMap_hexByte, RegFile.length_bytes]
  have hmax : maxBuf = 400 := rfl
  use display
  apply Performs.orRaise hpack
  rw [bin2str_eq]
  apply performs_rspCommand _ _ hparse
  · apply plain_cons (by decide)
    apply plain_append (plain_formatHex reg)
    exact plain_cons (by decide) (plain_flatMap_hexByte _)
  · rw [List.length_cons, List.length_append, List.length_cons]
    omega

/-! ### Steps and resets -/

/-- `step` steps the core. -/
theorem performs_rspStep
    {ret : OpRet} (hstep : avrCoreStep.run c = .ok (ret, c')) (hret : ret ≠ .breakPoint)
    (hsp : HasGdbSp c') (limit : Nat) :
  Performs cellName c (rspStep limit) c' (stopText sigtrap c')
  := by
  have hmsg : Plain "s".toList := by
    decide
  have hlen : (stopText sigtrap c').length ≤ 395 := by
    rw [length_stopText]
    decide
  apply performs_send hmsg _ (reads_handleReply (plain_stopText sigtrap c') hlen (by decide) limit)
  intro l hl
  exact ⟨3, answers_step_packet hl hstep hret hsp⟩

/-- `cont` steps the core up to a breakpoint. -/
theorem performs_rspCont
    {n : Nat} {c₂ : AvrCore δ} (hsteps : StepsFor n c c₁)
    (hbreak : avrCoreStep.run c₁ = .ok (.breakPoint, c₂))
    (hdisable : avrCoreDisableBreakpoints.run c₂ = .ok ((), c')) (hsp : HasGdbSp c') (limit : Nat) :
  Performs cellName c (rspCont limit) c' (stopText sigtrap c')
  := by
  have hmsg : Plain "c".toList := by
    decide
  have hlen : (stopText sigtrap c').length ≤ 395 := by
    rw [length_stopText]
    decide
  apply performs_send hmsg _ (reads_handleReply (plain_stopText sigtrap c') hlen (by decide) limit)
  intro l hl
  exact ⟨_, answers_continue_packet hl hsteps hbreak hdisable hsp⟩

/-- `reset` resets the core. -/
theorem performs_targetReset
    (c : AvrCore δ) (limit : Nat) :
  Performs cellName c (targetReset limit) c.reset ()
  := by
  have hmsg : Plain ('C' :: formatHex2 1) := by
    decide
  have htext : Plain "S05".toList := by
    decide
  have hparse : (gdbParsePacket cellName false ('C' :: formatHex2 1)).run c
      = .ok (.reply "S05".toList, c.reset) := rfl
  have hcont : Performs cellName c (contWithSignal limit 1) c.reset "S05".toList := by
    apply performs_send hmsg _ (reads_handleReply htext (by decide) (by decide) limit)
    intro l hl
    exact ⟨1, answers_reply hl hmsg (by decide) hparse (by decide)⟩
  exact hcont.bind (Performs.pure c.reset ())

/-! ### Breakpoints -/

/-- The packet of a breakpoint -/
def breakPacket (z : Char) (type addr len : Nat) : List Char :=
  z :: (formatDec type ++ ',' :: (formatHex addr ++ ',' :: formatHex len))

omit [IoDevices δ] in
/-- The types of breakpoints have one digit. -/
theorem formatDec_digit
    {type : Nat} (h : type < 10) :
  formatDec type = [Nat.digitChar type]
  := Nat.toDigits_of_lt_base h

omit [IoDevices δ] in
theorem plain_breakPacket
    {z : Char} (hz : z = 'Z' ∨ z = 'z') {type addr len : Nat} (htype : type < 10)
    (haddr : addr < 2 ^ 31) (hlen : len < 2 ^ 31) :
  Plain (breakPacket z type addr len) ∧ (breakPacket z type addr len).length ≤ maxBuf
  := by
  have hmax : maxBuf = 400 := rfl
  have haddrlen := length_formatHex (n := addr) (by omega)
  have hlenlen := length_formatHex (n := len) (by omega)
  constructor
  · apply plain_cons
    · obtain rfl | rfl := hz <;> decide
    · rw [formatDec_digit htype]
      apply plain_cons (plain_digitChar type (by omega))
      apply plain_cons (by decide)
      apply plain_append (plain_formatHex addr)
      exact plain_cons (by decide) (plain_formatHex len)
  · rw [breakPacket, formatDec_digit htype]
    simp only [List.length_cons, List.length_append, List.length_nil]
    omega

/-- The handler of the packet of a breakpoint -/
theorem run_gdbParsePacket_break
    {z : Char} (hz : z = 'Z' ∨ z = 'z') {type addr len : Nat} (htype : type < 10) {text : List Char}
    (hbreak : (gdbBreakPoint z (Nat.digitChar type :: ',' :: (formatHex addr
      ++ ',' :: formatHex len))).run c = .ok (text, c')) :
  (gdbParsePacket cellName false (breakPacket z type addr len)).run c = .ok (.reply text, c')
  := by
  rw [breakPacket, formatDec_digit htype]
  obtain rfl | rfl := hz <;> apply run_handledReply hbreak

/-- A packet of a breakpoint that the server handles -/
theorem performs_breakCommand
    {z : Char} (hz : z = 'Z' ∨ z = 'z') {type addr len : Nat} (htype : type < 10)
    (haddr : addr < 2 ^ 31) (hlen : len < 2 ^ 31) {text : List Char}
    (htext : text = [] ∨ text = "OK".toList)
    (hbreak : (gdbBreakPoint z (Nat.digitChar type :: ',' :: (formatHex addr
      ++ ',' :: formatHex len))).run c = .ok (text, c')) :
  Performs cellName c (breakCommand z type addr len) c' ()
  := by
  obtain ⟨hplain, hlength⟩ := plain_breakPacket hz htype haddr hlen
  have htextplain : Plain text ∧ text.length ≤ 395 := by
    obtain rfl | rfl := htext
    · exact ⟨plain_nil, by decide⟩
    · exact ⟨by decide, by decide⟩
  have hend : Performs cellName c' (if some text = some [] then .ret ()
      else if some text ≠ some "OK".toList then .fail (.errPacket []) else .ret ()) c' () := by
    obtain rfl | rfl := htext <;> exact Performs.pure c' ()
  have hreply := (performs_reply hplain hlength (run_gdbParsePacket_break hz htype hbreak)
    htextplain.1 htextplain.2).bind (k := fun reply => if reply = some [] then .ret ()
      else if reply ≠ some "OK".toList then .fail (.errPacket []) else .ret ()) hend
  rw [Process.bind_assoc] at hreply
  exact hreply

/-- `break_insert` and `break_remove` of a software breakpoint insert and remove it. -/
theorem performs_breakCommand_software
    {z : Char} (hz : z = 'Z' ∨ z = 'z') {addr len : Nat} (haddr : addr < 2 ^ 31)
    (hlen : len < 2 ^ 31) (hpc : ((addr / 2 : Nat) : Int) < c.pcMax)
    (hrun : (if z = 'z' then avrCoreRemoveBreakpoint (addr / 2 : Nat)
      else avrCoreInsertBreakpoint (addr / 2 : Nat)).run c = .ok ((), c')) :
  Performs cellName c (breakCommand z 0 addr len) c' ()
  := by
  apply performs_breakCommand hz (by decide) haddr hlen (.inr rfl)
  have hparse := gdbGetAddrLen_read (hexValue_formatHex addr) (hexValue_formatHex len) haddr hlen
  have hdiv : (addr : Int).tdiv 2 = (addr / 2 : Nat) := rfl
  have hfits : ("OK".toList).length < maxBuf - 4 := by
    decide
  rw [gdbBreakPoint]
  simp only [List.drop_succ_cons, List.drop_zero]
  rw [run_bind_of_ok (run_liftExcept_ok hparse c)]
  change (do
    let maxPc ← gets AvrCore.pcMax
    if (addr : Int).tdiv 2 ≥ maxPc then
      gdbSendReply "E01".toList
    else do
      if z = 'z' then avrCoreRemoveBreakpoint ((addr : Int).tdiv 2)
      else avrCoreInsertBreakpoint ((addr : Int).tdiv 2)
      gdbSendReply "OK".toList : CoreM δ (List Char)).run c = _
  rw [run_bind_of_ok (run_gets _ c), hdiv, if_neg (by omega)]
  by_cases hremove : z = 'z'
  · rw [if_pos hremove] at hrun ⊢
    exact (run_bind_of_ok hrun).trans (run_gdbSendReply hfits)
  · rw [if_neg hremove] at hrun ⊢
    exact (run_bind_of_ok hrun).trans (run_gdbSendReply hfits)

omit [IoDevices δ] in
/-- The types of which the server supports none -/
theorem digitChar_unsupported :
  ∀ type < 10, type ≠ 0 → Nat.digitChar type ≠ '0'
  := by
  decide

/-- `break_insert` and `break_remove` of another type do nothing. -/
theorem performs_breakCommand_other
    {z : Char} (hz : z = 'Z' ∨ z = 'z') {type addr len : Nat} (htype : type < 10) (hother : type ≠ 0)
    (haddr : addr < 2 ^ 31) (hlen : len < 2 ^ 31) :
  Performs cellName c (breakCommand z type addr len) c ()
  := by
  have hparse := gdbGetAddrLen_read (hexValue_formatHex addr) (hexValue_formatHex len) haddr hlen
  have hbreak (text : List Char) (htext : text = if Nat.digitChar type ∈ ['1', '2', '3', '4'] then []
      else "OK".toList) : (gdbBreakPoint z (Nat.digitChar type :: ',' :: (formatHex addr
        ++ ',' :: formatHex len))).run c = .ok (text, c) := by
    rw [gdbBreakPoint, List.headD_cons]
    simp only [List.drop_succ_cons, List.drop_zero]
    rw [run_bind_of_ok (run_liftExcept_ok hparse c), if_neg (digitChar_unsupported type htype hother)]
    by_cases hsupported : Nat.digitChar type ∈ ['1', '2', '3', '4']
    · rw [if_pos hsupported] at htext ⊢
      rw [htext]
      apply run_gdbSendReply
      decide
    · rw [if_neg hsupported] at htext ⊢
      rw [htext]
      apply run_gdbSendReply
      decide
  apply performs_breakCommand hz htype haddr hlen _ (hbreak _ rfl)
  split
  · exact .inl rfl
  · exact .inr rfl

end

/-! ### Memories -/

section

variable {δ : Type} {c c' : AvrCore (WithEEprom δ)}

/-- The core `c'` is `c` with other memories of the same layout, and other messages to the
display. -/
structure OtherMemory (c c' : AvrCore (WithEEprom δ)) : Prop where
  eq : ∃ flash sram ee display, c' = { c with
    flash := flash, sram := sram, dev := { c.dev with ee := ee }, display := display }
  layout : c'.layout = c.layout

/-- The program writes to memories only. -/
abbrev WritesMemory (c : AvrCore (WithEEprom δ)) {α : Type} (x : CoreM (WithEEprom δ) α) : Prop :=
  Keeps (OtherMemory c) (fun _ => True) x

theorem OtherMemory.setFlash
    (h : OtherMemory c c') {flash : Flash}
    (hflash : flash.base = c'.flash.base ∧ flash.size = c'.flash.size)
    (display : List DisplayMsg) :
  OtherMemory c { c' with flash := flash, display := display }
  := by
  obtain ⟨⟨_, sram, ee, _, rfl⟩, hlayout⟩ := h
  constructor
  · exact ⟨flash, sram, ee, display, rfl⟩
  · rw [← hlayout]
    simp only [AvrCore.layout, hflash.1, hflash.2]

theorem writesMemory_gdbGetByte
    (pkt : List Char) :
  WritesMemory c (liftExcept (gdbGetByte pkt))
  := by
  intro d hd
  cases gdbGetByte pkt with
  | ok b => exact hd
  | error e => trivial

theorem writesMemory_storageWriteb
    (addr : Int) (val : Byte) :
  WritesMemory c (do
    let flash ← gets AvrCore.flash
    let flash ← liftExcept (storageWriteb flash addr val)
    update (fun c => { c with flash := flash }))
  := by
  intro d hd
  rw [run_bind_of_ok (run_gets _ d)]
  cases hwrite : storageWriteb d.flash addr val with
  | error e => trivial
  | ok flash => exact hd.setFlash (storageWriteb_shape hwrite) d.display

theorem writesMemory_flashWrite
    (addr : Int) (val : Word) :
  WritesMemory c (avrCoreFlashWrite addr val)
  := by
  intro d hd
  rw [run_avrCoreFlashWrite]
  cases hwrite : storageWritew d.flash (addr * 2) val with
  | error e => trivial
  | ok flash => exact hd.setFlash (storageWritew_shape hwrite) _

/-- The branch of `gdb_write_memory` for flash -/
theorem writesMemory_gdbWriteFlash
    (addr len : Int) (pkt : List Char) :
  WritesMemory c (gdbWriteFlash addr len pkt)
  := by
  have heven (addr : Int) (len : Nat) (pkt : List Char) :
      WritesMemory c (gdbWriteFlashEven addr len pkt) := by
    apply Triple.bind
    · apply Keeps.loop
      intro i pkt
      apply Triple.bind (writesMemory_gdbGetByte _)
      intro low
      apply Triple.bind (writesMemory_gdbGetByte _)
      intro high
      apply Triple.bind (writesMemory_flashWrite _ _)
      intro _
      exact Triple.pure fun _ h => h
    · intro pkt
      apply Triple.ite
      · intro _
        apply Triple.bind (writesMemory_gdbGetByte _)
        intro b
        apply writesMemory_storageWriteb
      · intro _
        exact Triple.pure fun _ h => h
  apply Triple.ite
  · intro _
    apply Triple.bind (writesMemory_gdbGetByte _)
    intro b
    apply Triple.bind (writesMemory_storageWriteb _ _)
    intro _
    apply heven
  · intro _
    apply heven

variable [IoDevices δ]

theorem writesMemory_memWrite
    {a : Word} (ha : c.layout.IsSram a) (val : Byte) :
  WritesMemory c (memWrite a.toNat val)
  := by
  intro d hd
  rw [← hd.layout] at ha
  obtain ⟨display, hrun⟩ := memWrite_sram ha val
  rw [hrun]
  obtain ⟨⟨flash, sram, ee, _, rfl⟩, hlayout⟩ := hd
  exact ⟨⟨flash, _, ee, display, rfl⟩, hlayout⟩

/-- A write inside of a segment -/
theorem writesMemory_gdbWriteSegment
    {s : Segment} {addr : Int} {len : Nat} (hlen : 1 ≤ len)
    (hin : ∀ x, addr ≤ x → x < addr + len → s.Has c x) (pkt : List Char) :
  WritesMemory c (gdbWriteSegment (s.offset + addr) len pkt)
  := by
  have hfirst := hin addr (le_refl _) (by omega)
  obtain ⟨hlow, hhigh⟩ := hfirst.offset_bounds
  cases s with
  | flash =>
    obtain ⟨-, -, -, hoffset⟩ := hfirst
    have hnot : ¬ (sramOffset ≤ Segment.flash.offset + addr ∧
        Segment.flash.offset + addr < eepromOffset) := by
      rw [Segment.offset]
      omega
    have hflash : Segment.flash.offset + addr < sramOffset := by
      rw [Segment.offset]
      omega
    rw [gdbWriteSegment, if_neg hnot, if_pos hflash]
    apply writesMemory_gdbWriteFlash
  | sram =>
    obtain ⟨a, rfl, -⟩ := hfirst
    have ha := a.isLt
    have hpos : sramOffset ≤ Segment.sram.offset + (a.toNat : Int) ∧
        Segment.sram.offset + (a.toNat : Int) < eepromOffset := by
      simp only [Segment.offset, sramOffset, eepromOffset]
      omega
    have hsub : Segment.sram.offset + (a.toNat : Int) - sramOffset = a.toNat := by
      simp only [Segment.offset]
      omega
    rw [gdbWriteSegment, if_pos hpos, hsub, Int.toNat_natCast]
    apply Triple.bind
    · apply Keeps.loop_range
      intro i pkt hlow hhigh
      obtain ⟨b, rfl, hb⟩ := hin i hlow hhigh
      apply Triple.bind (writesMemory_gdbGetByte _)
      intro val
      apply Triple.bind (writesMemory_memWrite hb _)
      intro _
      exact Triple.pure fun _ h => h
    · intro _
      exact Triple.pure fun _ h => h
  | eeprom =>
    have hneg : ¬ (sramOffset ≤ Segment.eeprom.offset + addr ∧
        Segment.eeprom.offset + addr < eepromOffset) := by
      simp only [Segment.offset, sramOffset, eepromOffset] at *
      omega
    have hneg' : ¬ Segment.eeprom.offset + addr < sramOffset := by
      simp only [Segment.offset, sramOffset, eepromOffset] at *
      omega
    rw [gdbWriteSegment, if_neg hneg, if_neg hneg']
    apply Triple.bind
    · apply Keeps.loop
      intro i pkt
      apply Triple.bind (writesMemory_gdbGetByte _)
      intro val
      apply Triple.bind (Q := fun _ => OtherMemory c)
      · rintro d ⟨⟨flash, sram, ee, display, rfl⟩, hlayout⟩
        exact ⟨⟨flash, sram, _, display, rfl⟩, hlayout⟩
      · intro _
        exact Triple.pure fun _ h => h
    · intro _
      exact Triple.pure fun _ h => h

end

/-! ### Memory -/

section

variable {δ : Type} [IoDevices δ] {cellName : Int → Option (List Char)}
  {c : AvrCore (WithEEprom δ)} {s : Segment} {addr : Int}

/-- The first digit of a byte does not announce an error. -/
theorem hexByte_head :
  ∀ b : Byte, hexDigit (b >>> 4) ≠ 'E'
  := by
  decide +kernel

/-- The packet of an address and a length, and what follows it, fits. -/
theorem length_addrLen
    {addr len : Nat} (haddr : addr < 2 ^ 31) (hlen : len < 2 ^ 31) :
  (formatHex addr).length + (formatHex len).length ≤ 16
  := by
  have := length_formatHex (n := addr) (by omega)
  have := length_formatHex (n := len) (by omega)
  omega

/-- `read_mem` reads bytes inside of a segment. -/
theorem performs_readMem
    {n : Nat} (hn : 1 ≤ n) (hin : ∀ x, addr ≤ x → x < addr + n → s.Has c x) (hfits : 2 * n ≤ 395) :
  Performs cellName c (readMem (s.offset + addr).toNat n) c (readRange (s.byte c) addr n)
  := by
  have hfirst := hin addr (le_refl _) (by omega)
  obtain ⟨hlow, hhigh⟩ := hfirst.offset_bounds
  have hoffset : 0 ≤ s.offset := by cases s <;> decide
  have hpkt : IsReadPacket (s.offset + addr).toNat n
      (formatHex (s.offset + addr).toNat ++ ',' :: formatHex n) :=
    ⟨_, _, hexValue_formatHex _, hexValue_formatHex _, rfl⟩
  have hlen : ((readRange (s.byte c) addr n).flatMap hexByte).length = 2 * n := by
    rw [length_flatMap_hexByte, length_readRange]
  have hread := run_gdbReadMemory hfirst (fun _ _ => hn) hin (by omega) hpkt
  rw [run_gdbSendReply (by rw [hlen, maxBuf]; omega)] at hread
  have hparse : (gdbParsePacket cellName false
      ('m' :: (formatHex (s.offset + addr).toNat ++ ',' :: formatHex n))).run c
      = .ok (.reply ((readRange (s.byte c) addr n).flatMap hexByte), c) := by
    apply run_handledReply hread
  have hmsglen := @length_addrLen (s.offset + addr).toNat n (by omega) (by omega)
  have hmax : maxBuf = 400 := rfl
  apply (performs_rspCall _ _ hparse (plain_flatMap_hexByte _) (by omega)).bind
  · obtain ⟨m, rfl⟩ := Nat.exists_eq_add_one_of_ne_zero (Nat.one_le_iff_ne_zero.mp hn)
    have hhead : ((readRange (s.byte c) addr (m + 1)).flatMap hexByte).head?
        = some (hexDigit (s.byte c addr >>> 4)) := rfl
    apply Performs.orRaise hhead
    rw [if_neg (hexByte_head _), str2bin_hexByte]
    apply Performs.pure
  · apply plain_cons (by decide)
    apply plain_append (plain_formatHex _)
    exact plain_cons (by decide) (plain_formatHex _)
  · rw [List.length_cons, List.length_append, List.length_cons]
    omega

variable (cellName) in
/-- `write_mem` writes bytes inside of a segment. -/
theorem performs_writeMem
    {vals : List Byte} (hvals : 1 ≤ vals.length)
    (hin : ∀ x, addr ≤ x → x < addr + vals.length → s.Has c x) (hfits : 2 * vals.length ≤ 380) :
  ∃ c', Performs cellName c (writeMem (s.offset + addr).toNat vals.length vals) c' ()
    ∧ Wrote s addr vals c c' ∧ OtherMemory c c'
  := by
  have hfirst := hin addr (le_refl _) (by omega)
  obtain ⟨hlow, hhigh⟩ := hfirst.offset_bounds
  have hoffset : 0 ≤ s.offset := by cases s <;> decide
  have haddr : ((s.offset + addr).toNat : Int) = s.offset + addr := by omega
  obtain ⟨c', hsegment, hwrote⟩ := run_gdbWriteSegment hfirst (fun _ _ => hvals) (isData_hexByte vals)
    hin []
  have hother := (writesMemory_gdbWriteSegment hvals hin _).of_ok ⟨⟨_, _, _, _, rfl⟩, rfl⟩ hsegment
  have haddrLen := gdbGetAddrLen_write (hexValue_formatHex (s.offset + addr).toNat)
    (hexValue_formatHex vals.length) (by omega) (by omega) (vals.flatMap hexByte ++ [])
  rw [haddr] at haddrLen
  have hwrite : (gdbWriteMemory (formatHex (s.offset + addr).toNat ++ ',' ::
      (formatHex vals.length ++ ':' :: (vals.flatMap hexByte ++ [])))).run c
      = .ok ("OK".toList, c') := by
    rw [gdbWriteMemory, run_bind_of_ok (run_liftExcept_ok haddrLen c)]
    exact (run_bind_of_ok hsegment).trans (run_gdbSendReply (by decide))
  have hparse : (gdbParsePacket cellName false ('M' :: (formatHex (s.offset + addr).toNat ++
      ',' :: (formatHex vals.length ++ ':' :: (vals.flatMap hexByte ++ []))))).run c
      = .ok (.reply "OK".toList, c') := by
    apply run_handledReply hwrite
  have hmsglen := @length_addrLen (s.offset + addr).toNat vals.length (by omega) (by omega)
  have hmax : maxBuf = 400 := rfl
  refine ⟨c', ?_, hwrote, hother⟩
  rw [List.append_nil] at hparse
  rw [writeMem, bin2str_eq]
  apply performs_rspCommand _ _ hparse
  · apply plain_cons (by decide)
    apply plain_append (plain_formatHex _)
    apply plain_cons (by decide)
    apply plain_append (plain_formatHex _)
    exact plain_cons (by decide) (plain_flatMap_hexByte _)
  · simp only [List.length_cons, List.length_append, length_flatMap_hexByte]
    omega

end

end SimulAvr
