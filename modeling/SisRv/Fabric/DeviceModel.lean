import SisRv.Fabric.Devices

/-!
# Devices for their user

GPIO, UART, the test port and the CLINT exist as peripherals behind the routers
and once more inside the AXI slave.  The module says what they are for a user:
registers at addresses, what a write does to them and what a read returns.
-/

namespace SisRv

/-! ## Registers -/

/-- The registers that both platforms have. -/
inductive DeviceReg
  | tohost
  | msip
  | mtimecmpLow
  | mtimecmpHigh
  | gpioData
  | gpioDir
  | gpioIn
  | gpioSet
  | gpioClr
  | uartTxdata
  | uartRxdata
  | uartStatus
  | uartCtrl
  | uartBauddiv
  deriving DecidableEq

namespace DeviceReg

def addr : DeviceReg → BitVec 32
  | .tohost => 0x10000000
  | .msip => 0x02000000
  | .mtimecmpLow => 0x02004000
  | .mtimecmpHigh => 0x02004004
  | .gpioData => 0x10003000
  | .gpioDir => 0x10003004
  | .gpioIn => 0x10003008
  | .gpioSet => 0x1000300C
  | .gpioClr => 0x10003010
  | .uartTxdata => 0x10004000
  | .uartRxdata => 0x10004004
  | .uartStatus => 0x10004008
  | .uartCtrl => 0x1000400C
  | .uartBauddiv => 0x10004010

def all : List DeviceReg :=
  [.tohost, .msip, .mtimecmpLow, .mtimecmpHigh, .gpioData, .gpioDir, .gpioIn,
    .gpioSet, .gpioClr, .uartTxdata, .uartRxdata, .uartStatus, .uartCtrl,
    .uartBauddiv]

/-- The register at an address. -/
def find (addr : BitVec 32) : Option DeviceReg :=
  all.find? fun reg => reg.addr == addr

@[simp] theorem find_addr (reg : DeviceReg) : find reg.addr = some reg := by
  cases reg <;> rfl

theorem eq_of_find {addr : BitVec 32} {reg : DeviceReg}
    (found : find addr = some reg) : addr = reg.addr := by
  have same := List.find?_some found
  exact (beq_iff_eq.mp same).symm

theorem ne_of_find {addr : BitVec 32} (none : find addr = none)
    (reg : DeviceReg) : addr ≠ reg.addr := by
  rintro rfl
  rw [find_addr] at none
  cases none

end DeviceReg

/-- The device that has a register. -/
def DeviceReg.device : DeviceReg → Device
  | .tohost => .tohost
  | .msip | .mtimecmpLow | .mtimecmpHigh => .clint
  | .gpioData | .gpioDir | .gpioIn | .gpioSet | .gpioClr => .gpio
  | .uartTxdata | .uartRxdata | .uartStatus | .uartCtrl | .uartBauddiv => .uart

theorem DeviceReg.addressMap_addr (reg : DeviceReg) :
    addressMap reg.addr = some reg.device := by
  cases reg <;> decide

/-- The register found at an address belongs to the device named there. -/
theorem DeviceReg.device_of_find {addr : BitVec 32} {reg : DeviceReg}
    {d : Device} (found : find addr = some reg)
    (named : addressMap addr = some d) : reg.device = d := by
  rw [eq_of_find found, addressMap_addr] at named
  exact Option.some.inj named

/-- What the devices hold and the bytes that the UART has sent. -/
structure DeviceState where
  pass : Bool
  fail : Bool
  lastCode : BitVec 32
  msip : Bool
  mtimecmpLow : BitVec 32
  mtimecmpHigh : BitVec 32
  gpioOut : BitVec 32
  gpioOe : BitVec 32
  uartCtrl : BitVec 32
  uartBauddiv : BitVec 32
  uartLastTx : BitVec 8
  uartRxData : BitVec 8
  uartRxValid : Bool
  sent : List (BitVec 8)
  deriving DecidableEq

namespace DeviceState

def reset : DeviceState where
  pass := false
  fail := false
  lastCode := 0
  msip := false
  mtimecmpLow := 0xFFFFFFFF
  mtimecmpHigh := 0xFFFFFFFF
  gpioOut := 0
  gpioOe := 0
  uartCtrl := 1
  uartBauddiv := 0
  uartLastTx := 0
  uartRxData := 0
  uartRxValid := false
  sent := []

variable (s : DeviceState)

/-- A byte goes out, with loopback back to the receiver. -/
def send (byte : BitVec 8) : DeviceState :=
  { s with
    uartLastTx := byte
    uartRxData := if s.uartCtrl.getLsbD 1 then byte else s.uartRxData
    uartRxValid := s.uartCtrl.getLsbD 1 || s.uartRxValid
    sent := s.sent ++ [byte] }

/-- A write of strobed bytes to a register. -/
def write (data : BitVec 32) (strb : BitVec 4) : DeviceReg → DeviceState
  | .tohost =>
      { s with
        lastCode := data
        pass := s.pass || data == 1
        fail := s.fail || data == 0 }
  | .msip => if strb.getLsbD 0 then { s with msip := data.getLsbD 0 } else s
  | .mtimecmpLow =>
      { s with mtimecmpLow := applyWstrb s.mtimecmpLow data strb }
  | .mtimecmpHigh =>
      { s with mtimecmpHigh := applyWstrb s.mtimecmpHigh data strb }
  | .gpioData => { s with gpioOut := applyWstrb s.gpioOut data strb }
  | .gpioDir => { s with gpioOe := applyWstrb s.gpioOe data strb }
  | .gpioSet => { s with gpioOut := s.gpioOut ||| data }
  | .gpioClr => { s with gpioOut := s.gpioOut &&& ~~~data }
  | .uartTxdata =>
      if strb.getLsbD 0 && s.uartCtrl.getLsbD 0 then
        s.send (data.extractLsb' 0 8)
      else s
  | .uartCtrl => { s with uartCtrl := applyWstrb s.uartCtrl data strb }
  | .uartBauddiv =>
      { s with uartBauddiv := applyWstrb s.uartBauddiv data strb }
  | .gpioIn | .uartRxdata | .uartStatus => s

/-- What a read takes from a register. -/
def take : DeviceReg → DeviceState
  | .uartRxdata => { s with uartRxValid := false }
  | _ => s

/-- The word of a register. -/
def read (pins : BitVec 32) : DeviceReg → BitVec 32
  | .tohost => s.lastCode
  | .msip => (BitVec.ofBool s.msip).setWidth 32
  | .mtimecmpLow => s.mtimecmpLow
  | .mtimecmpHigh => s.mtimecmpHigh
  | .gpioData => s.gpioOut
  | .gpioDir => s.gpioOe
  | .gpioIn => pins
  | .gpioSet | .gpioClr => 0
  | .uartTxdata => s.uartLastTx.setWidth 32
  | .uartRxdata => s.uartRxData.setWidth 32
  | .uartStatus => (BitVec.ofBool s.uartRxValid ++ 1#1 : BitVec 2).setWidth 32
  | .uartCtrl => s.uartCtrl
  | .uartBauddiv => s.uartBauddiv

/-- The devices after an access, which has to name a register to act. -/
def access (req : BusReq) : DeviceState :=
  match DeviceReg.find req.addr with
  | some reg => if req.we then s.write req.wdata req.wstrb reg else s.take reg
  | none => s

/-- What a read returns.  Beside the registers only the test port has a
value. -/
def answer (pins : BitVec 32) (addr : BitVec 32) : BitVec 32 :=
  match DeviceReg.find addr with
  | some reg => s.read pins reg
  | none =>
      if 0x10000000 ≤ addr.toNat ∧ addr.toNat ≤ 0x10000003 then s.lastCode
      else 0

end DeviceState

/-- The blocks in which both platforms decode the same registers. -/
def Common (addr : BitVec 32) : Prop :=
  (0x10003000 ≤ addr.toNat ∧ addr.toNat ≤ 0x1000301F) ∨
    (0x10004000 ≤ addr.toNat ∧ addr.toNat ≤ 0x1000401F) ∨
    (0x10000000 ≤ addr.toNat ∧ addr.toNat ≤ 0x10000003) ∨
    (0x02000000 ≤ addr.toNat ∧ addr.toNat ≤ 0x02000003) ∨
    (0x02004000 ≤ addr.toNat ∧ addr.toNat ≤ 0x02004007)

/-- The address names one of the devices. -/
def namesDevice (addr : BitVec 32) : Bool :=
  match addressMap addr with
  | some .tohost | some .gpio | some .uart | some .clint => true
  | _ => false

theorem namesDevice_addr (reg : DeviceReg) : namesDevice reg.addr = true := by
  rw [namesDevice, DeviceReg.addressMap_addr]
  cases reg <;> rfl

/-- An access elsewhere changes no device. -/
theorem DeviceState.access_elsewhere (s : DeviceState) {req : BusReq}
    (elsewhere : namesDevice req.addr = false) : s.access req = s := by
  unfold access
  cases found : DeviceReg.find req.addr with
  | none => rfl
  | some reg =>
      rw [DeviceReg.eq_of_find found, namesDevice_addr] at elsewhere
      cases elsewhere

end SisRv
