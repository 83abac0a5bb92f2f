import SisRv.Fabric.DeviceModel
import SisRv.Fabric.Regions
import SisRv.Fabric.Responses

/-!
# The devices behind the routers

Every cycle of the data path is an access to the devices as their user sees
them, or changes none of them, as long as requests stay within the blocks.
-/

namespace SisRv

namespace DataPath

variable (s : DataPath) (i : DataPathIn)

/-- The byte that goes out in this cycle. -/
def sends : Option (BitVec 8) :=
  if s.uart.uartTxValid then some s.uart.uartTxData else none

/-- The devices, with the bytes sent before this cycle. -/
def devices (before : List (BitVec 8)) : DeviceState where
  pass := s.tohost.pass
  fail := s.tohost.fail
  lastCode := s.tohost.lastCode
  msip := s.clint.msip
  mtimecmpLow := ClintState.lowWord s.clint.mtimecmp
  mtimecmpHigh := ClintState.highWord s.clint.mtimecmp
  gpioOut := s.gpio.gpioOut
  gpioOe := s.gpio.gpioOe
  uartCtrl := s.uart.ctrlReg
  uartBauddiv := s.uart.bauddivReg
  uartLastTx := s.uart.lastTxData
  uartRxData := s.uart.rxData
  uartRxValid := s.uart.rxValid
  sent := before ++ s.sends.toList

variable {s i} {before : List (BitVec 8)}

theorem devices_reset (rom : BitVec 19 → BitVec 32)
    (ram : BitVec 16 → BitVec 32) :
    (reset rom ram).devices [] = DeviceState.reset := by
  have low : ClintState.lowWord 0xFFFFFFFFFFFFFFFF = 0xFFFFFFFF := by decide
  have high : ClintState.highWord 0xFFFFFFFFFFFFFFFF = 0xFFFFFFFF := by decide
  simp only [devices, reset, ClintState.reset, low, high]
  rfl

/-! ### One cycle -/

theorem tohost_next :
    (s.next i).tohost.pass =
        (if s.fires i .tohost then
          s.tohost.pass || TohostState.hit i.req && i.req.wdata == 1
        else s.tohost.pass) ∧
      (s.next i).tohost.fail =
        (if s.fires i .tohost then
          s.tohost.fail || TohostState.hit i.req && i.req.wdata == 0
        else s.tohost.fail) ∧
      (s.next i).tohost.lastCode =
        if s.fires i .tohost then s.tohost.answer i.req
        else s.tohost.lastCode := by
  have fires : s.tohost.reqFire (s.tohostIn i) = s.fires i .tohost := rfl
  have step : (s.next i).tohost = s.tohost.next (s.tohostIn i) := rfl
  rw [step, TohostState.next, fires]
  cases s.fires i .tohost with
  | true => exact ⟨rfl, rfl, rfl⟩
  | false =>
      simp only [Bool.false_eq_true, if_false]
      split_ifs <;> exact ⟨rfl, rfl, rfl⟩

theorem gpio_next :
    (s.next i).gpio.gpioOut =
        (if s.fires i .gpio then s.gpio.outNext i.req else s.gpio.gpioOut) ∧
      (s.next i).gpio.gpioOe =
        if s.fires i .gpio then s.gpio.oeNext i.req else s.gpio.gpioOe := by
  have fires : s.gpio.reqFire (s.gpioPort i) = s.fires i .gpio := rfl
  have step : (s.next i).gpio = s.gpio.next (s.gpioPort i) := rfl
  rw [step, GpioState.next, fires]
  cases s.fires i .gpio with
  | true => exact ⟨rfl, rfl⟩
  | false =>
      simp only [Bool.false_eq_true, if_false]
      split_ifs <;> exact ⟨rfl, rfl⟩

theorem uart_next_of_fires (fires : s.fires i .uart = true) :
    (s.next i).uart =
      let byte := i.req.wdata.extractLsb' 0 8
      let sent := s.uart.transmits i.req
      { pending := true
        rdataReg := s.uart.answer i.req
        ctrlReg := UartState.regNext Uart.offCtrl s.uart.ctrlReg i.req
        bauddivReg := UartState.regNext Uart.offBauddiv s.uart.bauddivReg i.req
        lastTxData := if sent then byte else s.uart.lastTxData
        rxData := if sent && s.uart.loopback then byte else s.uart.rxData
        rxValid :=
          if sent && s.uart.loopback then true
          else if UartState.receives i.req then false
          else s.uart.rxValid
        uartTxValid := sent
        uartTxData := if sent then byte else s.uart.uartTxData } :=
  if_pos fires

theorem uart_next_of_not_fires (silent : s.fires i .uart = false) :
    ((s.next i).uart.ctrlReg = s.uart.ctrlReg ∧
      (s.next i).uart.bauddivReg = s.uart.bauddivReg ∧
      (s.next i).uart.lastTxData = s.uart.lastTxData ∧
      (s.next i).uart.rxData = s.uart.rxData ∧
      (s.next i).uart.rxValid = s.uart.rxValid) ∧
    (s.next i).sends = none := by
  have fires : s.uart.reqFire (s.uartIn i) = false := silent
  have step : (s.next i).uart = s.uart.next (s.uartIn i) := rfl
  rw [sends, step, UartState.next, fires, if_neg Bool.false_ne_true]
  split_ifs <;> simp_all

theorem clint_next :
    (s.next i).clint.msip =
        (if s.fires i .clint && ClintState.addrMatch i.req && i.req.we &&
            ClintState.rel i.req == Clint.offMsip &&
            i.req.wstrb.getLsbD 0 then i.req.wdata.getLsbD 0
          else s.clint.msip) ∧
      (s.next i).clint.mtimecmp =
        if s.fires i .clint && ClintState.addrMatch i.req && i.req.we then
          if ClintState.rel i.req = Clint.offMsip ∧ i.req.wstrb.getLsbD 0 then
            s.clint.mtimecmp
          else if ClintState.rel i.req = Clint.offMtimecmp then
            ClintState.writeLow s.clint.mtimecmp i.req
          else if ClintState.rel i.req = Clint.offMtimecmp + 4 then
            ClintState.writeHigh s.clint.mtimecmp i.req
          else s.clint.mtimecmp
        else s.clint.mtimecmp :=
  ⟨rfl, rfl⟩

/-! ### The devices that are not asked -/

theorem tohost_kept (silent : s.fires i .tohost = false) :
    (s.next i).tohost.pass = s.tohost.pass ∧
      (s.next i).tohost.fail = s.tohost.fail ∧
      (s.next i).tohost.lastCode = s.tohost.lastCode := by
  have step := tohost_next (s := s) (i := i)
  simpa only [silent, Bool.false_eq_true, if_false] using step

theorem gpio_kept (silent : s.fires i .gpio = false) :
    (s.next i).gpio.gpioOut = s.gpio.gpioOut ∧
      (s.next i).gpio.gpioOe = s.gpio.gpioOe := by
  have step := gpio_next (s := s) (i := i)
  simpa only [silent, Bool.false_eq_true, if_false] using step

theorem clint_kept (silent : s.fires i .clint = false) :
    (s.next i).clint.msip = s.clint.msip ∧
      (s.next i).clint.mtimecmp = s.clint.mtimecmp := by
  have step := clint_next (s := s) (i := i)
  simpa only [silent, Bool.false_and, Bool.false_eq_true, if_false] using step

theorem devices_of_silent (tohost : s.fires i .tohost = false)
    (gpio : s.fires i .gpio = false) (uart : s.fires i .uart = false)
    (clint : s.fires i .clint = false) :
    (s.next i).devices (before ++ s.sends.toList) = s.devices before := by
  obtain ⟨pass, fail, lastCode⟩ := tohost_kept tohost
  obtain ⟨out, oe⟩ := gpio_kept gpio
  obtain ⟨⟨ctrl, bauddiv, lastTx, rxData, rxValid⟩, sends⟩ :=
    uart_next_of_not_fires uart
  obtain ⟨msip, mtimecmp⟩ := clint_kept clint
  simp only [devices, pass, fail, lastCode, out, oe, ctrl, bauddiv, lastTx,
    rxData, rxValid, sends, msip, mtimecmp, Option.toList, List.append_nil]

/-! ### The device that is asked -/

section Asked

variable {d : Device} (only : ∀ e, s.fires i e = decide (d = e))
include only

theorem tohost_asked (named : d = .tohost) :
    (s.next i).devices (before ++ s.sends.toList) =
      { s.devices before with
        pass := s.tohost.pass || TohostState.hit i.req && i.req.wdata == 1
        fail := s.tohost.fail || TohostState.hit i.req && i.req.wdata == 0
        lastCode := s.tohost.answer i.req } := by
  subst named
  have asked : s.fires i .tohost = true := only .tohost
  obtain ⟨pass, fail, lastCode⟩ := tohost_next (s := s) (i := i)
  rw [if_pos asked] at pass fail lastCode
  obtain ⟨out, oe⟩ := gpio_kept (only .gpio)
  obtain ⟨⟨ctrl, bauddiv, lastTx, rxData, rxValid⟩, sends⟩ :=
    uart_next_of_not_fires (only .uart)
  obtain ⟨msip, mtimecmp⟩ := clint_kept (only .clint)
  simp only [devices, pass, fail, lastCode, out, oe, ctrl, bauddiv, lastTx,
    rxData, rxValid, sends, msip, mtimecmp, Option.toList, List.append_nil]

theorem gpio_asked (named : d = .gpio) :
    (s.next i).devices (before ++ s.sends.toList) =
      { s.devices before with
        gpioOut := s.gpio.outNext i.req
        gpioOe := s.gpio.oeNext i.req } := by
  subst named
  obtain ⟨pass, fail, lastCode⟩ := tohost_kept (only .tohost)
  have asked : s.fires i .gpio = true := only .gpio
  obtain ⟨out, oe⟩ := gpio_next (s := s) (i := i)
  rw [if_pos asked] at out oe
  obtain ⟨⟨ctrl, bauddiv, lastTx, rxData, rxValid⟩, sends⟩ :=
    uart_next_of_not_fires (only .uart)
  obtain ⟨msip, mtimecmp⟩ := clint_kept (only .clint)
  simp only [devices, pass, fail, lastCode, out, oe, ctrl, bauddiv, lastTx,
    rxData, rxValid, sends, msip, mtimecmp, Option.toList, List.append_nil]

theorem uart_asked (named : d = .uart) :
    (s.next i).devices (before ++ s.sends.toList) =
      let byte := i.req.wdata.extractLsb' 0 8
      let sent := s.uart.transmits i.req
      { s.devices before with
        uartCtrl := UartState.regNext Uart.offCtrl s.uart.ctrlReg i.req
        uartBauddiv :=
          UartState.regNext Uart.offBauddiv s.uart.bauddivReg i.req
        uartLastTx := if sent then byte else s.uart.lastTxData
        uartRxData := if sent && s.uart.loopback then byte else s.uart.rxData
        uartRxValid :=
          if sent && s.uart.loopback then true
          else if UartState.receives i.req then false
          else s.uart.rxValid
        sent := before ++ s.sends.toList ++ if sent then [byte] else [] } := by
  subst named
  obtain ⟨pass, fail, lastCode⟩ := tohost_kept (only .tohost)
  obtain ⟨out, oe⟩ := gpio_kept (only .gpio)
  have uart := uart_next_of_fires (only .uart)
  obtain ⟨msip, mtimecmp⟩ := clint_kept (only .clint)
  have sends : (s.next i).sends.toList =
      if s.uart.transmits i.req then [i.req.wdata.extractLsb' 0 8] else [] := by
    rw [DataPath.sends, uart]
    cases s.uart.transmits i.req <;> rfl
  simp only [devices, pass, fail, lastCode, out, oe, sends, msip, mtimecmp]
  rw [uart]

theorem clint_asked (named : d = .clint) :
    (s.next i).devices (before ++ s.sends.toList) =
      { s.devices before with
        msip := (s.next i).clint.msip
        mtimecmpLow := ClintState.lowWord (s.next i).clint.mtimecmp
        mtimecmpHigh := ClintState.highWord (s.next i).clint.mtimecmp } := by
  subst named
  obtain ⟨pass, fail, lastCode⟩ := tohost_kept (only .tohost)
  obtain ⟨out, oe⟩ := gpio_kept (only .gpio)
  obtain ⟨⟨ctrl, bauddiv, lastTx, rxData, rxValid⟩, sends⟩ :=
    uart_next_of_not_fires (only .uart)
  simp only [devices, pass, fail, lastCode, out, oe, ctrl, bauddiv, lastTx,
    rxData, rxValid, sends, Option.toList, List.append_nil]

end Asked

/-! ### Accesses -/

/-- The windows of the routers. -/
theorem window_of_addressMap {addr : BitVec 32} {d : Device}
    (named : addressMap addr = some d) :
    (d = .gpio → 0x10003000 ≤ addr.toNat ∧ addr.toNat ≤ 0x10003FFF) ∧
      (d = .uart → 0x10004000 ≤ addr.toNat ∧ addr.toNat ≤ 0x10004FFF) ∧
      (d = .clint → 0x02000000 ≤ addr.toNat ∧ addr.toNat ≤ 0x0200FFFF) ∧
      (d = .tohost → 0x10000000 ≤ addr.toNat ∧ addr.toNat ≤ 0x1000FFFF ∧
        addr.toNat / 0x1000 ≠ 0x10003 ∧ addr.toNat / 0x1000 ≠ 0x10004) := by
  unfold addressMap at named
  dsimp only at named
  split_ifs at named <;> cases named <;> simp <;> omega

/-- In its block GPIO finds its registers. -/
theorem gpio_block {req : BusReq} (common : Common req.addr)
    (named : addressMap req.addr = some .gpio) :
    GpioState.addrMatch req = true ∧ 0x10003000 ≤ req.addr.toNat ∧
      ∀ o, GpioState.regOffset req = o → req.addr = 0x0800180#27 ++ o := by
  have window := (window_of_addressMap named).1 rfl
  have range : 0x10003000 ≤ req.addr.toNat ∧ req.addr.toNat ≤ 0x1000301F := by
    rcases common with inside | inside | inside | inside | inside <;> omega
  have block := (AxiLiteSlave.isGpio_iff _).mpr range
  exact ⟨(field_beq_iff req.addr 8 24 0x100030 (by decide)).mpr (by omega),
    range.1, fun o here => AxiLiteSlave.eq_of_isGpio block here⟩

/-- In its block the UART finds its registers. -/
theorem uart_block {req : BusReq} (common : Common req.addr)
    (named : addressMap req.addr = some .uart) :
    UartState.addrMatch req = true ∧ 0x10004000 ≤ req.addr.toNat ∧
      ∀ o, UartState.regOffset req = o → req.addr = 0x0800200#27 ++ o := by
  have window := (window_of_addressMap named).2.1 rfl
  have range : 0x10004000 ≤ req.addr.toNat ∧ req.addr.toNat ≤ 0x1000401F := by
    rcases common with inside | inside | inside | inside | inside <;> omega
  have block := (AxiLiteSlave.isUart_iff _).mpr range
  exact ⟨(field_beq_iff req.addr 8 24 0x100040 (by decide)).mpr (by omega),
    range.1, fun o here => AxiLiteSlave.eq_of_isUart block here⟩

theorem clint_page {req : BusReq}
    (named : addressMap req.addr = some .clint) :
    ClintState.addrMatch req = true := by
  have window := (window_of_addressMap named).2.2.1 rfl
  exact (field_beq_iff req.addr 16 16 0x0200 (by decide)).mpr (by omega)

theorem clint_rel_iff (req : BusReq) :
    (ClintState.rel req = Clint.offMsip ↔
        req.addr = DeviceReg.addr .msip) ∧
      (ClintState.rel req = Clint.offMtimecmp ↔
        req.addr = DeviceReg.addr .mtimecmpLow) ∧
      (ClintState.rel req = Clint.offMtimecmp + 4 ↔
        req.addr = DeviceReg.addr .mtimecmpHigh) := by
  have msip : DeviceReg.addr .msip = Clint.offMsip + Clint.baseAddr := by
    decide
  have low : DeviceReg.addr .mtimecmpLow =
      Clint.offMtimecmp + Clint.baseAddr := by decide
  have high : DeviceReg.addr .mtimecmpHigh =
      Clint.offMtimecmp + 4 + Clint.baseAddr := by decide
  rw [msip, low, high, ClintState.rel]
  exact ⟨BitVec.sub_eq_iff_eq_add, BitVec.sub_eq_iff_eq_add,
    BitVec.sub_eq_iff_eq_add⟩

section Words

variable (word : BitVec 64) (req : BusReq)

theorem lowWord_writeLow :
    ClintState.lowWord (ClintState.writeLow word req) =
      applyWstrb (ClintState.lowWord word) req.wdata req.wstrb :=
  BitVec.extractLsb'_append_eq_right

theorem highWord_writeLow :
    ClintState.highWord (ClintState.writeLow word req) =
      ClintState.highWord word :=
  BitVec.extractLsb'_append_eq_left

theorem lowWord_writeHigh :
    ClintState.lowWord (ClintState.writeHigh word req) =
      ClintState.lowWord word :=
  BitVec.extractLsb'_append_eq_right

theorem highWord_writeHigh :
    ClintState.highWord (ClintState.writeHigh word req) =
      applyWstrb (ClintState.highWord word) req.wdata req.wstrb :=
  BitVec.extractLsb'_append_eq_left

end Words

section Sending

theorem uart_offset_txdata {req : BusReq}
    (place : req.addr = DeviceReg.addr .uartTxdata) :
    UartState.regOffset req = Uart.offTxdata := by
  rw [UartState.regOffset, place]
  rfl

theorem txdata_ne_rxdata : (Uart.offTxdata == Uart.offRxdata) = false := rfl

theorem txdata_ne_ctrl : (Uart.offTxdata == Uart.offCtrl) = false := rfl

theorem txdata_ne_bauddiv : (Uart.offTxdata == Uart.offBauddiv) = false := rfl

/-- The registers of the UART after a byte was sent or held back. -/
theorem devices_sending (sent : Bool) (byte : BitVec 8) :
    { s.devices before with
      uartLastTx := if sent then byte else s.uart.lastTxData
      uartRxData := if sent && s.uart.loopback then byte else s.uart.rxData
      uartRxValid := if sent && s.uart.loopback then true else s.uart.rxValid
      sent := before ++ s.sends.toList ++ if sent then [byte] else [] } =
      if sent then (s.devices before).send byte else s.devices before := by
  have loops : (s.devices before).uartCtrl.getLsbD 1 = s.uart.loopback := rfl
  cases sent with
  | false =>
      simp only [Bool.false_and, Bool.false_eq_true, if_false, List.append_nil]
      rfl
  | true =>
      simp only [Bool.true_and, if_true, DeviceState.send, loops]
      cases s.uart.loopback <;> rfl

end Sending

section Accesses

variable {d : Device} (only : ∀ e, s.fires i e = decide (d = e))
  (named : addressMap i.req.addr = some d)
include only named

theorem tohost_access (at_ : d = .tohost) :
    (s.next i).devices (before ++ s.sends.toList) =
      (s.devices before).access i.req := by
  rw [tohost_asked only at_]
  subst at_
  unfold DeviceState.access
  cases found : DeviceReg.find i.req.addr with
  | none =>
      have away : (i.req.addr == Tohost.baseAddr) = false :=
        beq_eq_false_iff_ne.mpr (DeviceReg.ne_of_find found .tohost)
      have other : TohostState.hit i.req = false := by
        rw [TohostState.hit, away, Bool.and_false]
      simp only [TohostState.answer, other, Bool.false_and, Bool.or_false,
        Bool.false_eq_true, if_false]
      rfl
  | some reg =>
      have place := DeviceReg.eq_of_find found
      have device := DeviceReg.device_of_find found named
      cases reg <;> cases device
      have hit : TohostState.hit i.req = i.req.we := by
        rw [TohostState.hit, place]
        exact Bool.and_true _
      rw [TohostState.answer, hit]
      cases i.req.we with
      | false =>
          simp only [Bool.false_and, Bool.or_false, Bool.false_eq_true,
            if_false]
          rfl
      | true => rfl

theorem gpio_access (at_ : d = .gpio) (common : Common i.req.addr) :
    (s.next i).devices (before ++ s.sends.toList) =
      (s.devices before).access i.req := by
  rw [gpio_asked only at_]
  subst at_
  obtain ⟨page, high, offset⟩ := gpio_block common named
  unfold DeviceState.access GpioState.outNext GpioState.oeNext
  rw [page]
  cases found : DeviceReg.find i.req.addr with
  | none =>
      have other := DeviceReg.ne_of_find found
      have data : GpioState.regOffset i.req ≠ Gpio.offData := fun here =>
        other .gpioData (offset _ here)
      have dir : GpioState.regOffset i.req ≠ Gpio.offDir := fun here =>
        other .gpioDir (offset _ here)
      have set : GpioState.regOffset i.req ≠ Gpio.offSet := fun here =>
        other .gpioSet (offset _ here)
      have clr : GpioState.regOffset i.req ≠ Gpio.offClr := fun here =>
        other .gpioClr (offset _ here)
      rw [if_neg data, if_neg set, if_neg clr, beq_eq_false_iff_ne.mpr dir,
        Bool.and_false, ite_self, if_neg Bool.false_ne_true]
      rfl
  | some reg =>
      have place := DeviceReg.eq_of_find found
      have device := DeviceReg.device_of_find found named
      rw [GpioState.regOffset, place]
      cases reg <;> cases device <;> cases we : i.req.we <;> rfl

theorem uart_access (at_ : d = .uart) (common : Common i.req.addr) :
    (s.next i).devices (before ++ s.sends.toList) =
      (s.devices before).access i.req := by
  rw [uart_asked only at_]
  subst at_
  obtain ⟨page, high, offset⟩ := uart_block common named
  unfold DeviceState.access UartState.regNext UartState.transmits
    UartState.receives
  rw [page]
  cases found : DeviceReg.find i.req.addr with
  | none =>
      have other := DeviceReg.ne_of_find found
      have txdata : (UartState.regOffset i.req == Uart.offTxdata) = false :=
        beq_eq_false_iff_ne.mpr fun here => other .uartTxdata (offset _ here)
      have rxdata : (UartState.regOffset i.req == Uart.offRxdata) = false :=
        beq_eq_false_iff_ne.mpr fun here => other .uartRxdata (offset _ here)
      have ctrl : (UartState.regOffset i.req == Uart.offCtrl) = false :=
        beq_eq_false_iff_ne.mpr fun here => other .uartCtrl (offset _ here)
      have bauddiv : (UartState.regOffset i.req == Uart.offBauddiv) = false :=
        beq_eq_false_iff_ne.mpr fun here =>
          other .uartBauddiv (offset _ here)
      simp only [txdata, rxdata, ctrl, bauddiv, Bool.and_false,
        Bool.false_and, Bool.false_eq_true, if_false, List.append_nil]
      rfl
  | some reg =>
      have place := DeviceReg.eq_of_find found
      have device := DeviceReg.device_of_find found named
      cases reg <;> cases device
      case uartTxdata.refl =>
        rw [uart_offset_txdata place]
        cases i.req.we with
        | false =>
            simp only [Bool.and_false, Bool.false_and, Bool.true_and,
              Bool.false_eq_true, if_false, List.append_nil, txdata_ne_rxdata]
            rfl
        | true =>
            simp only [Bool.and_true, Bool.true_and, Bool.and_false,
              Bool.not_true, Bool.false_and, beq_self_eq_true,
              Bool.false_eq_true, if_false, txdata_ne_ctrl,
              txdata_ne_bauddiv]
            exact devices_sending _ _
      all_goals
        rw [UartState.regOffset, place]
        cases we : i.req.we <;>
          simp [DeviceState.write, DeviceState.take, DeviceReg.addr,
            Uart.offTxdata, Uart.offRxdata, Uart.offCtrl, Uart.offBauddiv,
            devices]

theorem clint_access (at_ : d = .clint) :
    (s.next i).devices (before ++ s.sends.toList) =
      (s.devices before).access i.req := by
  rw [clint_asked only at_]
  subst at_
  have asked : s.fires i .clint = true := only .clint
  have page := clint_page named
  obtain ⟨isMsip, isLow, isHigh⟩ := clint_rel_iff i.req
  obtain ⟨msip, mtimecmp⟩ := clint_next (s := s) (i := i)
  rw [asked, page, Bool.true_and, Bool.true_and] at msip
  rw [asked, page, Bool.true_and, Bool.true_and] at mtimecmp
  rw [msip, mtimecmp]
  unfold DeviceState.access
  cases found : DeviceReg.find i.req.addr with
  | none =>
      have other := DeviceReg.ne_of_find found
      have notMsip := isMsip.not.mpr (other .msip)
      have notLow := isLow.not.mpr (other .mtimecmpLow)
      have notHigh := isHigh.not.mpr (other .mtimecmpHigh)
      rw [beq_eq_false_iff_ne.mpr notMsip, Bool.and_false, Bool.false_and,
        if_neg Bool.false_ne_true, if_neg (not_and_of_not_left _ notMsip),
        if_neg notLow, if_neg notHigh, ite_self]
      rfl
  | some reg =>
      have here := DeviceReg.eq_of_find found
      have device := DeviceReg.device_of_find found named
      cases reg <;> cases device
      case msip.refl =>
        rw [isMsip.mpr here]
        have notLow : Clint.offMsip ≠ Clint.offMtimecmp := by decide
        have notHigh : Clint.offMsip ≠ Clint.offMtimecmp + 4 := by decide
        rw [if_neg notLow, if_neg notHigh, ite_self, ite_self]
        cases we : i.req.we
        · rfl
        · simp only [beq_self_eq_true, Bool.true_and, if_true,
            DeviceState.write]
          split_ifs <;> rfl
      case mtimecmpLow.refl =>
        rw [isLow.mpr here]
        have notMsip : Clint.offMtimecmp ≠ Clint.offMsip := by decide
        rw [beq_eq_false_iff_ne.mpr notMsip, Bool.and_false, Bool.false_and,
          if_neg Bool.false_ne_true, if_neg (not_and_of_not_left _ notMsip),
          if_pos rfl]
        cases we : i.req.we
        · rfl
        · rw [if_pos rfl, lowWord_writeLow, highWord_writeLow]
          rfl
      case mtimecmpHigh.refl =>
        rw [isHigh.mpr here]
        have notMsip : Clint.offMtimecmp + 4 ≠ Clint.offMsip := by decide
        have notLow : Clint.offMtimecmp + 4 ≠ Clint.offMtimecmp := by decide
        rw [beq_eq_false_iff_ne.mpr notMsip, Bool.and_false, Bool.false_and,
          if_neg Bool.false_ne_true, if_neg (not_and_of_not_left _ notMsip),
          if_neg notLow, if_pos rfl]
        cases we : i.req.we
        · rfl
        · rw [if_pos rfl, lowWord_writeHigh, highWord_writeHigh]
          rfl

end Accesses

variable (before) in
/-- A cycle of the data path is an access to its devices or changes none. -/
theorem devices_next (common : namesDevice i.req.addr = true →
      s.accepts i = true → Common i.req.addr) :
    (s.next i).devices (before ++ s.sends.toList) =
      if s.accepts i then (s.devices before).access i.req
      else s.devices before := by
  cases accepted : s.accepts i with
  | false =>
      have silent (d : Device) : s.fires i d = false := by
        rw [fires_eq, accepted, Bool.false_and]
      rw [if_neg Bool.false_ne_true]
      exact devices_of_silent (silent _) (silent _) (silent _) (silent _)
  | true =>
      have fires (d : Device) :
          s.fires i d = decide (addressMap i.req.addr = some d) := by
        rw [fires_eq, accepted, Bool.true_and]
      rw [if_pos rfl]
      cases names : namesDevice i.req.addr with
      | false =>
          have other {d : Device} (compared : d = .tohost ∨ d = .gpio ∨
              d = .uart ∨ d = .clint) : s.fires i d = false := by
            rw [fires, decide_eq_false_iff_not]
            intro named
            rw [namesDevice, named] at names
            rcases compared with rfl | rfl | rfl | rfl <;> cases names
          rw [devices_of_silent (other (by simp)) (other (by simp))
            (other (by simp)) (other (by simp)),
            DeviceState.access_elsewhere _ names]
      | true =>
          have inside := common names accepted
          cases named : addressMap i.req.addr with
          | none =>
              rw [namesDevice, named] at names
              cases names
          | some d =>
              simp only [named, Option.some.injEq] at fires
              cases at_ : d with
              | tohost => exact tohost_access fires named at_
              | gpio => exact gpio_access fires named at_ inside
              | uart => exact uart_access fires named at_ inside
              | clint => exact clint_access fires named at_
              | rom | ram | plic =>
                  rw [namesDevice, named, at_] at names
                  cases names

/-! ### Answers -/

section Answers

variable {d : Device} (named : addressMap i.req.addr = some d)
  (read : i.req.we = false)
include named read

theorem tohost_answer (at_ : d = .tohost) (common : Common i.req.addr) :
    s.tohost.answer i.req =
      (s.devices before).answer i.gpioIn i.req.addr := by
  subst at_
  have miss : TohostState.hit i.req = false := by
    rw [TohostState.hit, read, Bool.false_and]
  have window := (window_of_addressMap named).2.2.2 rfl
  rw [TohostState.answer, miss, if_neg Bool.false_ne_true]
  unfold DeviceState.answer
  cases found : DeviceReg.find i.req.addr with
  | none =>
      have inside : 0x10000000 ≤ i.req.addr.toNat ∧
          i.req.addr.toNat ≤ 0x10000003 := by
        rcases common with inside | inside | inside | inside | inside <;>
          omega
      exact (if_pos inside).symm
  | some reg =>
      have place := DeviceReg.eq_of_find found
      have device := DeviceReg.device_of_find found named
      rw [place]
      cases reg <;> cases device
      rfl

theorem gpio_answer (at_ : d = .gpio) (common : Common i.req.addr) :
    s.gpio.answer i.gpioIn i.req =
      (s.devices before).answer i.gpioIn i.req.addr := by
  subst at_
  obtain ⟨page, high, offset⟩ := gpio_block common named
  unfold GpioState.answer DeviceState.answer
  rw [page, read, Bool.not_false, Bool.and_true, if_pos rfl]
  cases found : DeviceReg.find i.req.addr with
  | none =>
      have other := DeviceReg.ne_of_find found
      dsimp only
      rw [if_neg fun here => other .gpioData (offset _ here),
        if_neg fun here => other .gpioDir (offset _ here),
        if_neg fun here => other .gpioIn (offset _ here),
        if_neg (by omega)]
  | some reg =>
      have place := DeviceReg.eq_of_find found
      have device := DeviceReg.device_of_find found named
      rw [GpioState.regOffset, place]
      cases reg <;> cases device <;> rfl

theorem uart_answer (at_ : d = .uart) (common : Common i.req.addr) :
    s.uart.answer i.req =
      (s.devices before).answer i.gpioIn i.req.addr := by
  subst at_
  obtain ⟨page, high, offset⟩ := uart_block common named
  unfold UartState.answer DeviceState.answer
  rw [page, read, Bool.not_false, Bool.and_true, if_pos rfl]
  cases found : DeviceReg.find i.req.addr with
  | none =>
      have other := DeviceReg.ne_of_find found
      dsimp only
      rw [if_neg fun here => other .uartTxdata (offset _ here),
        if_neg fun here => other .uartRxdata (offset _ here),
        if_neg fun here => other .uartStatus (offset _ here),
        if_neg fun here => other .uartCtrl (offset _ here),
        if_neg fun here => other .uartBauddiv (offset _ here),
        if_neg (by omega)]
  | some reg =>
      have place := DeviceReg.eq_of_find found
      have device := DeviceReg.device_of_find found named
      rw [UartState.regOffset, place]
      cases reg <;> cases device <;> rfl

theorem clint_answer (at_ : d = .clint) (common : Common i.req.addr) :
    s.clint.answer i.req =
      (s.devices before).answer i.gpioIn i.req.addr := by
  subst at_
  have page := clint_page named
  obtain ⟨isMsip, isLow, isHigh⟩ := clint_rel_iff i.req
  have window := (window_of_addressMap named).2.2.1 rfl
  have low : i.req.addr.toNat ≤ 0x02004007 := by
    rcases common with inside | inside | inside | inside | inside <;> omega
  have mtime : ClintState.rel i.req ≠ Clint.offMtime := by
    rw [ClintState.rel, ne_eq, BitVec.sub_eq_iff_eq_add]
    intro here
    rw [here] at low
    exact absurd low (by decide)
  have mtimeHigh : ClintState.rel i.req ≠ Clint.offMtime + 4 := by
    rw [ClintState.rel, ne_eq, BitVec.sub_eq_iff_eq_add]
    intro here
    rw [here] at low
    exact absurd low (by decide)
  unfold ClintState.answer DeviceState.answer
  rw [page, read, Bool.not_false, Bool.and_true, if_pos rfl]
  cases found : DeviceReg.find i.req.addr with
  | none =>
      have other := DeviceReg.ne_of_find found
      dsimp only
      rw [if_neg fun here => other .msip (isMsip.mp here),
        if_neg fun here => other .mtimecmpLow (isLow.mp here),
        if_neg fun here => other .mtimecmpHigh (isHigh.mp here),
        if_neg mtime, if_neg mtimeHigh, if_neg (by omega)]
  | some reg =>
      have place := DeviceReg.eq_of_find found
      have device := DeviceReg.device_of_find found named
      cases reg <;> cases device
      case msip.refl => rw [isMsip.mpr place]; rfl
      case mtimecmpLow.refl => rw [isLow.mpr place]; rfl
      case mtimecmpHigh.refl => rw [isHigh.mpr place]; rfl

end Answers

variable (before) in
/-- The data path answers a read as the user of its devices expects. -/
theorem answer_of_common (common : Common i.req.addr)
    (names : namesDevice i.req.addr = true) (read : i.req.we = false) :
    s.answer i =
      ((s.devices before).answer i.gpioIn i.req.addr, false) := by
  rw [answer]
  cases named : addressMap i.req.addr with
  | none =>
      rw [namesDevice, named] at names
      cases names
  | some d =>
      refine Prod.ext ?_ rfl
      cases at_ : d with
      | tohost => exact tohost_answer named read at_ common
      | gpio => exact gpio_answer named read at_ common
      | uart => exact uart_answer named read at_ common
      | clint => exact clint_answer named read at_ common
      | rom | ram | plic =>
          rw [namesDevice, named, at_] at names
          cases names

end DataPath

end SisRv
