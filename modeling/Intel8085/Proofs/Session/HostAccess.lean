import Intel8085.Proofs.Machine.Stretches
import Intel8085.Proofs.Processor.StatusBits
import Intel8085.Proofs.Session.Locality
import Intel8085.Proofs.Session.Requests

/-!
# What the host reads and changes

The host gives integers and names of its own choosing.  Where one of them names nothing that the
machine has, the request is refused for that reason and the session stays as it was; where all of them
do, the request is done, changes the places it names and no others, and what was put there is read
back (`perform_comesOut`).  Nothing wraps, nothing is cut to size and nothing is done by half.
-/

set_option autoImplicit false

namespace Intel8085

open Intel8085.Text

/-- A place that the host reads or changes.  The status byte is one, and so is each of its bits. -/
inductive HostPlace where
  | memory (address : UInt16)
  | port (port : UInt8)
  | register (register : HostRegister)
  | flag (position : Fin 8)
  deriving DecidableEq, Repr

def Session.look (session : Session) : HostPlace → Int
  | .memory address => (session.machine.memory.read address).toNat
  | .port port => (session.machine.ports.read port).toNat
  | .register register => session.machine.registers.hostRead register
  | .flag position => (session.machine.registers.statusBit position).toInt

/-- The registers that the host can name. -/
def HostRegister.names : List (String × HostRegister) :=
  [("A", .byte .a), ("B", .byte .b), ("C", .byte .c), ("D", .byte .d), ("E", .byte .e),
    ("H", .byte .h), ("L", .byte .l), ("FLAG", .byte .status), ("SP", .stackPointer),
    ("PC", .programCounter)]

namespace Request

def isHostAccess : Request → Bool
  | .readMemory _ => true
  | .writeMemory _ _ => true
  | .load _ _ => true
  | .snapshot _ length => decide (0 < length)
  | .readPort _ => true
  | .writePort _ _ => true
  | .drivePort _ _ => true
  | .getRegister _ => true
  | .setRegister _ _ => true
  | .getFlag _ => true
  | .setFlag _ _ => true
  | _ => false

def isRead : Request → Bool
  | .readMemory _ => true
  | .snapshot _ _ => true
  | .readPort _ => true
  | .getRegister _ => true
  | .getFlag _ => true
  | _ => false

/-! ## What a request names -/

def address? : Request → Option Int
  | .readMemory address => some address
  | .writeMemory address _ => some address
  | .load _ base => some base
  | .snapshot start _ => some start
  | _ => none

/-- The start and the length of a stretch of memory. -/
def stretch? : Request → Option (Int × Int)
  | .load image base => some (base, image.length)
  | .snapshot start length => some (start, length)
  | _ => none

def port? : Request → Option Int
  | .readPort port => some port
  | .writePort port _ => some port
  | .drivePort port _ => some port
  | _ => none

def position? : Request → Option Int
  | .getFlag position => some position
  | .setFlag position _ => some position
  | _ => none

def registerName? : Request → Option HostValue
  | .getRegister name => some name
  | .setRegister name _ => some name
  | _ => none

/-- The request names what the machine does not have, and this fault says so. -/
inductive IsOutside : Request → Fault → Prop where
  | address {request : Request} {address : Int} (names : request.address? = some address)
      (outside : ¬ (0 ≤ address ∧ address < 65536)) :
      IsOutside request (.addressOutOfBounds address)
  | stretch {request : Request} {start length : Int}
      (names : request.stretch? = some (start, length)) (starts : 0 ≤ start ∧ start < 65536)
      (beyond : 65536 < start + length) :
      IsOutside request (.addressOutOfBounds (start + length - 1))
  | port {request : Request} {port : Int} (names : request.port? = some port)
      (outside : ¬ (0 ≤ port ∧ port < 256)) : IsOutside request (.portOutOfBounds port)
  | position {request : Request} {position : Int} (names : request.position? = some position)
      (outside : ¬ (0 ≤ position ∧ position < 8)) :
      IsOutside request (.flagBitOutOfBounds position)
  | register {request : Request} {name : HostValue} (names : request.registerName? = some name)
      (unknown : ∀ text, name = .text text →
        upperCase text ∉ HostRegister.names.map fun entry => entry.1) :
      IsOutside request (.invalidRegister name)
  | value {text : String} {value : Int} (word : upperCase text = "SP" ∨ upperCase text = "PC")
      (outside : ¬ (0 ≤ value ∧ value < 65536)) :
      IsOutside (.setRegister (.text text) value) (.valueOutOfRange (upperCase text) value)

/-- The request names the place as one to change. -/
inductive Changes : Request → HostPlace → Prop where
  | memory {address : UInt16} {value : Int} :
      Changes (.writeMemory address.toNat value) (.memory address)
  | image {image : List UInt8} {base : Int} {address : UInt16} (behind : base ≤ address.toNat)
      (before : address.toNat < base + image.length) :
      Changes (.load image base) (.memory address)
  | written {port : UInt8} {value : Int} : Changes (.writePort port.toNat value) (.port port)
  | driven {port : UInt8} {value : Int} : Changes (.drivePort port.toNat value) (.port port)
  | register {text : String} {value : Int} {register : HostRegister}
      (named : (upperCase text, register) ∈ HostRegister.names) :
      Changes (.setRegister (.text text) value) (.register register)
  | flags {text : String} {value : Int} {position : Fin 8} (named : upperCase text = "FLAG") :
      Changes (.setRegister (.text text) value) (.flag position)
  | flag {position : Fin 8} {value : Bool} :
      Changes (.setFlag (position.val : Nat) value) (.flag position)
  | status {position : Int} {value : Bool} :
      Changes (.setFlag position value) (.register (.byte .status))

/-- What was put somewhere by the first request is what the second one, which reads there, is to be
answered with: a byte modulo 256, a word as it is. -/
inductive ReadsBack : Request → Request → Reply → Prop where
  | memory {address value : Int} :
      ReadsBack (.writeMemory address value) (.readMemory address) (.number (value % 256))
  | image {image : List UInt8} {base : Int} (something : image ≠ []) :
      ReadsBack (.load image base) (.snapshot base image.length) (.bytes image)
  | imageByte {image : List UInt8} {base : Int} {index : Nat} (inside : index < image.length) :
      ReadsBack (.load image base) (.readMemory (base + index)) (.number image[index].toNat)
  | written {port value : Int} :
      ReadsBack (.writePort port value) (.readPort port) (.number (value % 256))
  | driven {port value : Int} :
      ReadsBack (.drivePort port value) (.readPort port) (.number (value % 256))
  | byte {text other : String} {value : Int} (same : upperCase other = upperCase text)
      (byte : ¬ (upperCase text = "SP" ∨ upperCase text = "PC")) :
      ReadsBack (.setRegister (.text text) value) (.getRegister (.text other))
        (.number (value % 256))
  | word {text other : String} {value : Int} (same : upperCase other = upperCase text)
      (word : upperCase text = "SP" ∨ upperCase text = "PC") :
      ReadsBack (.setRegister (.text text) value) (.getRegister (.text other)) (.number value)
  | flag {position : Int} {value : Bool} :
      ReadsBack (.setFlag position value) (.getFlag position) (.truth value)

end Request

namespace Session

/-- What the request reads has these contents. -/
inductive Shows (session : Session) : Request → Reply → Prop where
  | memory {address : UInt16} :
      Shows session (.readMemory address.toNat) (.number (session.look (.memory address)))
  | image {start : UInt16} {length : Int} {bytes : List UInt8} (long : bytes.length = length)
      (each : ∀ (index : Nat) (inside : index < bytes.length), ∃ address : UInt16,
        address.toNat = start.toNat + index ∧
          session.look (.memory address) = bytes[index].toNat) :
      Shows session (.snapshot start.toNat length) (.bytes bytes)
  | port {port : UInt8} :
      Shows session (.readPort port.toNat) (.number (session.look (.port port)))
  | register {text : String} {register : HostRegister}
      (named : (upperCase text, register) ∈ HostRegister.names) :
      Shows session (.getRegister (.text text)) (.number (session.look (.register register)))
  | flag {position : Fin 8} {value : Bool} (set : session.look (.flag position) = value.toInt) :
      Shows session (.getFlag (position.val : Nat)) (.truth value)

/-- The request was done. -/
structure IsDone (setup : Setup) (patience : Nat) (session : Session) (request : Request)
    (after : Session) (reply : Reply) : Prop where
  read : request.isRead = true → after = session ∧ session.Shows request reply
  written : request.isRead = false → reply = .nothing
  keeps : ∀ place, ¬ request.Changes place → after.look place = session.look place
  beside : after = { session with machine := after.machine }
  interrupts : after.machine.registers.interruptsEnabled =
    session.machine.registers.interruptsEnabled
  observers : after.machine.ports.observers = session.machine.ports.observers
  journal : (∀ port value, request ≠ .writePort port value) →
    after.machine.ports.events = session.machine.ports.events
  readsBack : ∀ reading answer, request.ReadsBack reading answer →
    after.perform setup patience reading = (after, .ok answer)

/-- The request is refused because it names what the machine does not have, and nothing changes, or it
names nothing of that kind and is done. -/
inductive ComesOut (setup : Setup) (patience : Nat) (session : Session) (request : Request) :
    Prop where
  | refused (fault : Fault) (outside : request.IsOutside fault)
      (refused : session.perform setup patience request = (session, .error (.fault fault)))
  | done (after : Session) (reply : Reply) (inside : ∀ fault, ¬ request.IsOutside fault)
      (answered : session.perform setup patience request = (after, .ok reply))
      (done : session.IsDone setup patience request after reply)

section Outcomes

variable {setup : Setup} {patience : Nat} {session after : Session} {request : Request}
  {reply : Reply}

theorem comesOut_of_read (reads : request.isRead = true)
    (inside : ∀ fault, ¬ request.IsOutside fault)
    (answered : session.perform setup patience request = (session, .ok reply))
    (shows : session.Shows request reply) : session.ComesOut setup patience request := by
  refine .done session reply inside answered ?_
  constructor
  case read => exact fun _ => ⟨rfl, shows⟩
  case written =>
    intro writes
    rw [reads] at writes
    cases writes
  case keeps => exact fun _ _ => rfl
  case beside => rfl
  case interrupts => rfl
  case observers => rfl
  case journal => exact fun _ => rfl
  case readsBack =>
    intro reading answer back
    cases back <;> cases reads

end Outcomes

end Session

namespace Request

/-- Whatever the request names, the machine has it. -/
structure IsInside (request : Request) : Prop where
  address : ∀ address, request.address? = some address → 0 ≤ address ∧ address < 65536
  stretch : ∀ start length, request.stretch? = some (start, length) → start + length ≤ 65536
  port : ∀ port, request.port? = some port → 0 ≤ port ∧ port < 256
  position : ∀ position, request.position? = some position → 0 ≤ position ∧ position < 8
  register : ∀ name, request.registerName? = some name →
    ∃ text, name = .text text ∧ upperCase text ∈ HostRegister.names.map fun entry => entry.1
  value : ∀ text value, request = .setRegister (.text text) value →
    upperCase text = "SP" ∨ upperCase text = "PC" → 0 ≤ value ∧ value < 65536

theorem IsInside.not_isOutside {request : Request} (inside : request.IsInside) (fault : Fault) :
    ¬ request.IsOutside fault := by
  intro outside
  cases outside with
  | address names outside => exact outside (inside.address _ names)
  | stretch names _ beyond =>
      have fits := inside.stretch _ _ names
      omega
  | port names outside => exact outside (inside.port _ names)
  | position names outside => exact outside (inside.position _ names)
  | register names unknown =>
      obtain ⟨text, same, known⟩ := inside.register _ names
      exact unknown text same known
  | value word outside => exact outside (inside.value _ _ rfl word)

end Request

/-! ## Registers and their names -/

namespace HostRegister

theorem ofName?_of_mem {text : String} {register : HostRegister}
    (named : (upperCase text, register) ∈ names) : ofName? (.text text) = some register := by
  simp only [names, List.mem_cons, Prod.mk.injEq, List.not_mem_nil, or_false] at named
  rcases named with ⟨same, rfl⟩ | ⟨same, rfl⟩ | ⟨same, rfl⟩ | ⟨same, rfl⟩ | ⟨same, rfl⟩ |
    ⟨same, rfl⟩ | ⟨same, rfl⟩ | ⟨same, rfl⟩ | ⟨same, rfl⟩ | ⟨same, rfl⟩ <;>
  simp only [ofName?, same]

theorem mem_of_ofName? {name : HostValue} {register : HostRegister}
    (found : ofName? name = some register) :
    ∃ text, name = .text text ∧ (upperCase text, register) ∈ names := by
  cases name with
  | text text =>
      refine ⟨text, rfl, ?_⟩
      simp only [ofName?] at found
      split at found <;> cases found <;> simp_all [names]
  | _ => cases found

theorem ofName_of_mem {text : String} {register : HostRegister}
    (named : (upperCase text, register) ∈ names) : ofName (.text text) = .ok register := by
  rw [ofName, ofName?_of_mem named]

/-- A name is that of a register, or it is refused. -/
theorem name_cases (name : HostValue) :
    (∃ text register, name = .text text ∧ (upperCase text, register) ∈ names) ∨
      (∀ text, name = .text text → upperCase text ∉ names.map fun entry => entry.1) ∧
        ofName name = .error (.invalidRegister name) := by
  cases found : ofName? name with
  | some register =>
      obtain ⟨text, same, named⟩ := mem_of_ofName? found
      exact Or.inl ⟨text, register, same, named⟩
  | none =>
      refine Or.inr ⟨?_, ?_⟩
      · rintro text rfl known
        obtain ⟨⟨key, register⟩, member, same⟩ := List.mem_map.1 known
        cases same
        rw [ofName?_of_mem member] at found
        cases found
      · rw [ofName, found]

def isWord : HostRegister → Bool
  | .byte _ => false
  | .stackPointer => true
  | .programCounter => true

theorem isWord_iff {key : String} {register : HostRegister} (named : (key, register) ∈ names) :
    key = "SP" ∨ key = "PC" ↔ register.isWord = true := by
  have table : ∀ entry ∈ names, entry.1 = "SP" ∨ entry.1 = "PC" ↔ entry.2.isWord = true := by
    decide
  exact table _ named

theorem wordName_of_mem {key : String} {register : HostRegister} (named : (key, register) ∈ names)
    (word : register.isWord = true) : register.wordName = key := by
  have table : ∀ entry ∈ names, entry.2.isWord = true → entry.2.wordName = entry.1 := by decide
  exact table _ named word

theorem eq_status_of_mem {key : String} (named : (key, byte .status) ∈ names) : key = "FLAG" := by
  have table : ∀ entry ∈ names, entry.2 = byte .status → entry.1 = "FLAG" := by decide
  exact table _ named rfl

end HostRegister

namespace Registers

variable (registers : Registers) {register : HostRegister} {value : Int}

/-- What the host puts into a register: a byte modulo 256, a word as it is. -/
def hostValue (register : HostRegister) (value : Int) : Int :=
  if register.isWord then value else value % 256

theorem hostWrite_of_outside (word : register.isWord = true)
    (outside : ¬ (0 ≤ value ∧ value < 65536)) :
    registers.hostWrite register value = .error (.valueOutOfRange register.wordName value) := by
  have refused : ¬ (0 ≤ value ∧ value ≤ 0xFFFF) := by omega
  cases register with
  | byte register => cases word
  | stackPointer => exact if_neg refused
  | programCounter => exact if_neg refused

/-- The registers after the host has changed one of them. -/
structure IsChanged (register : HostRegister) (value : Int) (after : Registers) : Prop where
  same : after.hostRead register = hostValue register value
  others : ∀ other, other ≠ register → after.hostRead other = registers.hostRead other
  interrupts : after.interruptsEnabled = registers.interruptsEnabled

theorem hostWrite_of_inside (inside : register.isWord = true → 0 ≤ value ∧ value < 65536) :
    ∃ after, registers.hostWrite register value = .ok after ∧
      registers.IsChanged register value after := by
  cases register with
  | byte register =>
      refine ⟨_, rfl, ?_, ?_, ?_⟩
      · have bound := toNat_byteOf value
        simp only [hostRead, read_write_same, hostValue, HostRegister.isWord, Bool.false_eq_true,
          if_false]
        omega
      · intro other distinct
        cases other with
        | byte other =>
            have apart : other ≠ register := fun same => distinct (same ▸ rfl)
            simp only [hostRead, read_write_other registers _ apart]
        | stackPointer => cases register <;> rfl
        | programCounter => cases register <;> rfl
      · cases register <;> rfl
  | stackPointer =>
      have fits : 0 ≤ value ∧ value ≤ 0xFFFF := by
        have range := inside rfl
        omega
      refine ⟨_, if_pos fits, ?_, ?_, rfl⟩
      · have bound := toNat_wordOf value
        simp only [hostRead, hostValue, HostRegister.isWord, if_true]
        omega
      · intro other distinct
        cases other with
        | byte other => cases other <;> rfl
        | stackPointer => exact absurd rfl distinct
        | programCounter => rfl
  | programCounter =>
      have fits : 0 ≤ value ∧ value ≤ 0xFFFF := by
        have range := inside rfl
        omega
      refine ⟨_, if_pos fits, ?_, ?_, rfl⟩
      · have bound := toNat_wordOf value
        simp only [hostRead, hostValue, HostRegister.isWord, if_true]
        omega
      · intro other distinct
        cases other with
        | byte other => cases other <;> rfl
        | stackPointer => rfl
        | programCounter => exact absurd rfl distinct

theorem statusBit_of_hostRead {first second : Registers} (position : Fin 8)
    (same : first.hostRead (.byte .status) = second.hostRead (.byte .status)) :
    first.statusBit position = second.statusBit position :=
  congrArg (fun number : Nat => number.testBit position) same

end Registers

/-! ## The requests one by one -/

theorem statusPosition_val (position : Fin 8) : statusPosition (position.val : Nat) = .ok position := by
  have bound := position.isLt
  have inside : 0 ≤ ((position.val : Nat) : Int) ∧ ((position.val : Nat) : Int) ≤ 7 := by omega
  rw [statusPosition, dif_pos inside]
  rfl

theorem statusPosition_of_outside {number : Int} (outside : ¬ (0 ≤ number ∧ number < 8)) :
    statusPosition number = .error (.flagBitOutOfBounds number) := by
  have refused : ¬ (0 ≤ number ∧ number ≤ 7) := by omega
  rw [statusPosition, dif_neg refused]

theorem exists_position {number : Int} (inside : 0 ≤ number ∧ number < 8) :
    ∃ position : Fin 8, number = (position.val : Nat) :=
  ⟨⟨number.toNat, by omega⟩, by simp only; omega⟩

namespace Session

variable {setup : Setup} {patience : Nat} {session after : Session}

section Memory

theorem perform_readMemory_word (address : UInt16) :
    session.perform setup patience (.readMemory address.toNat) =
      (session, .ok (.number (session.look (.memory address)))) := by
  simp only [perform, Memory.read?, Memory.address_toNat]
  rfl

theorem comesOut_readMemory (address : Int) :
    session.ComesOut setup patience (.readMemory address) := by
  by_cases inside : 0 ≤ address ∧ address < 65536
  · obtain ⟨word, rfl⟩ := exists_word inside
    have isInside : (Request.readMemory word.toNat).IsInside :=
      ⟨by rintro _ ⟨⟩; exact inside, nofun, nofun, nofun, nofun, nofun⟩
    exact comesOut_of_read rfl isInside.not_isOutside (perform_readMemory_word word) .memory
  · refine .refused _ (.address rfl inside) ?_
    simp only [perform, Memory.read?, Memory.address_of_outside inside]
    rfl

theorem perform_snapshot_of_fits {start : UInt16} {count : Nat}
    (fits : start.toNat + count ≤ 65536) :
    session.perform setup patience (.snapshot start.toNat count) =
      (session, .ok (.bytes ((session.machine.memory.toList.drop start.toNat).take count))) := by
  have checked : Memory.checkStretch start.toNat count = .ok start :=
    Memory.checkStretch_of_fits (by omega) (by omega)
  simp only [perform, Memory.snapshot, checked]
  rfl

theorem comesOut_snapshot {start length : Int} (positive : 0 < length) :
    session.ComesOut setup patience (.snapshot start length) := by
  by_cases inside : 0 ≤ start ∧ start < 65536
  · obtain ⟨first, rfl⟩ := exists_word inside
    obtain ⟨count, rfl⟩ := Int.eq_ofNat_of_zero_le (Int.le_of_lt positive)
    by_cases fits : (first.toNat : Int) + count ≤ 65536
    · have isInside : (Request.snapshot first.toNat count).IsInside :=
        ⟨by rintro _ ⟨⟩; exact inside, by rintro _ _ ⟨⟩; exact fits, nofun, nofun, nofun, nofun⟩
      have ends : first.toNat + count ≤ 65536 := by omega
      have long := Memory.length_take_drop session.machine.memory ends
      refine comesOut_of_read rfl isInside.not_isOutside (perform_snapshot_of_fits ends)
        (.image (congrArg Nat.cast long) ?_)
      intro index within
      rw [long] at within
      obtain ⟨address, named⟩ : ∃ address : UInt16, ((first.toNat + index : Nat) : Int) = address.toNat :=
        exists_word (by omega)
      have located : address.toNat = first.toNat + index := by omega
      refine ⟨address, located, ?_⟩
      have found := Memory.getElem?_take_drop session.machine.memory ends within
      rw [List.getElem?_eq_getElem (by omega)] at found
      rw [Option.some.inj found, look, Memory.read, located]
    · refine .refused _ (.stretch rfl inside (by omega)) ?_
      simp only [perform, Memory.snapshot, Memory.checkStretch_of_beyond (Int.not_le.1 fits)]
      rfl
  · refine .refused _ (.address rfl inside) ?_
    simp only [perform, Memory.snapshot, Memory.checkStretch_of_outside inside]
    rfl

theorem toNat_byteOf_eq (value : Int) : ((byteOf value).toNat : Int) = value % 256 := by
  rw [toNat_byteOf]
  omega

theorem comesOut_writeMemory (address value : Int) :
    session.ComesOut setup patience (.writeMemory address value) := by
  by_cases inside : 0 ≤ address ∧ address < 65536
  · obtain ⟨word, rfl⟩ := exists_word inside
    have isInside : (Request.writeMemory word.toNat value).IsInside :=
      ⟨by rintro _ ⟨⟩; exact inside, nofun, nofun, nofun, nofun, nofun⟩
    refine .done (session.setMemory (session.machine.memory.write word (byteOf value))) .nothing
      isInside.not_isOutside ?_ ⟨nofun, fun _ => rfl, ?_, rfl, rfl, rfl, fun _ => rfl, ?_⟩
    · simp only [perform, Memory.write?, Memory.address_toNat]
      rfl
    · intro place unchanged
      cases place with
      | memory other =>
          have distinct : other ≠ word := fun same => unchanged (same ▸ .memory)
          exact congrArg (fun byte : UInt8 => (byte.toNat : Int))
            (Memory.read_write_other session.machine.memory (byteOf value) distinct)
      | _ => rfl
    · intro reading answer back
      cases back
      rw [perform_readMemory_word, look, setMemory, Memory.read_write_same, toNat_byteOf_eq]
  · refine .refused _ (.address rfl inside) ?_
    simp only [perform, Memory.write?, Memory.address_of_outside inside]
    rfl

theorem comesOut_load (image : List UInt8) (base : Int) :
    session.ComesOut setup patience (.load image base) := by
  by_cases inside : 0 ≤ base ∧ base < 65536
  · obtain ⟨first, rfl⟩ := exists_word inside
    by_cases fits : (first.toNat : Int) + image.length ≤ 65536
    · have isInside : (Request.load image first.toNat).IsInside :=
        ⟨by rintro _ ⟨⟩; exact inside, by rintro _ _ ⟨⟩; exact fits, nofun, nofun, nofun, nofun⟩
      have ends : first.toNat + image.length ≤ 65536 := by omega
      have checked : Memory.checkStretch first.toNat image.length = .ok first :=
        Memory.checkStretch_of_fits (by omega) fits
      refine .done (session.setMemory (session.machine.memory.store first.toNat image)) .nothing
        isInside.not_isOutside ?_ ⟨nofun, fun _ => rfl, ?_, rfl, rfl, rfl, fun _ => rfl, ?_⟩
      · simp only [perform, loadImage, Memory.load, checked]
        rfl
      · intro place unchanged
        cases place with
        | memory other =>
            have outside : ¬ (first.toNat ≤ other.toNat ∧
                other.toNat < first.toNat + image.length) := by
              rintro ⟨behind, before⟩
              exact unchanged (.image (by omega) (by omega))
            exact congrArg (fun byte : UInt8 => (byte.toNat : Int))
              (Memory.get_store_outside session.machine.memory ends other.toNat_lt outside)
        | _ => rfl
      · intro reading answer back
        cases back with
        | image =>
            rw [perform_snapshot_of_fits ends]
            simp only [setMemory, Memory.take_drop_store session.machine.memory ends]
        | @imageByte _ _ index within =>
            obtain ⟨address, named⟩ : ∃ address : UInt16,
                (first.toNat : Int) + index = address.toNat := exists_word (by omega)
            have located : address.toNat = first.toNat + index := by omega
            have stored := Memory.get_store_inside session.machine.memory ends within
            rw [named, perform_readMemory_word, look, setMemory, Memory.read, located, stored]
    · refine .refused _ (.stretch rfl inside (by omega)) ?_
      simp only [perform, loadImage, Memory.load, Memory.checkStretch_of_beyond (Int.not_le.1 fits)]
      rfl
  · refine .refused _ (.address rfl inside) ?_
    simp only [perform, loadImage, Memory.load, Memory.checkStretch_of_outside inside]
    rfl

end Memory

section Ports

theorem perform_readPort_byte (port : UInt8) :
    session.perform setup patience (.readPort port.toNat) =
      (session, .ok (.number (session.look (.port port)))) := by
  simp only [perform, Ports.port_toNat]
  rfl

theorem comesOut_readPort (port : Int) :
    session.ComesOut setup patience (.readPort port) := by
  by_cases inside : 0 ≤ port ∧ port < 256
  · obtain ⟨byte, rfl⟩ := exists_byte inside
    have isInside : (Request.readPort byte.toNat).IsInside :=
      ⟨nofun, nofun, by rintro _ ⟨⟩; exact inside, nofun, nofun, nofun⟩
    exact comesOut_of_read rfl isInside.not_isOutside (perform_readPort_byte byte) .port
  · refine .refused _ (.port rfl inside) ?_
    simp only [perform, Ports.port_of_outside inside]
    rfl

/-- A port reads as what was put there, and every other place as before. -/
theorem look_setPorts {ports : Ports} {port value : UInt8}
    (values : ports.values = session.machine.ports.values.set port.toNat value) (place : HostPlace) :
    (session.setPorts ports).look place =
      if place = .port port then (value.toNat : Int) else session.look place := by
  cases place with
  | port other =>
      by_cases same : other = port
      · rw [same, if_pos rfl, look, setPorts, Ports.read, values, Bank.get_set_same]
      · have kept := session.machine.ports.read_write_other value same
        rw [if_neg (fun places => same (HostPlace.port.inj places)), look, setPorts, Ports.read, values]
        exact congrArg (fun byte : UInt8 => (byte.toNat : Int)) kept
  | _ => rfl

theorem comesOut_writePort (port value : Int) :
    session.ComesOut setup patience (.writePort port value) := by
  by_cases inside : 0 ≤ port ∧ port < 256
  · obtain ⟨byte, rfl⟩ := exists_byte inside
    have isInside : (Request.writePort byte.toNat value).IsInside :=
      ⟨nofun, nofun, by rintro _ ⟨⟩; exact inside, nofun, nofun, nofun⟩
    refine .done (session.setPorts (session.machine.ports.write byte (byteOf value))) .nothing
      isInside.not_isOutside ?_ ⟨nofun, fun _ => rfl, ?_, rfl, rfl, rfl, ?_, ?_⟩
    · simp only [perform, Ports.port_toNat]
      rfl
    · intro place unchanged
      rw [look_setPorts rfl, if_neg]
      rintro rfl
      exact unchanged .written
    · intro notWritten
      exact absurd rfl (notWritten byte.toNat value)
    · intro reading answer back
      cases back
      rw [perform_readPort_byte, look_setPorts rfl, if_pos rfl, toNat_byteOf_eq]
  · refine .refused _ (.port rfl inside) ?_
    simp only [perform, Ports.port_of_outside inside]
    rfl

theorem comesOut_drivePort (port value : Int) :
    session.ComesOut setup patience (.drivePort port value) := by
  by_cases inside : 0 ≤ port ∧ port < 256
  · obtain ⟨byte, rfl⟩ := exists_byte inside
    have isInside : (Request.drivePort byte.toNat value).IsInside :=
      ⟨nofun, nofun, by rintro _ ⟨⟩; exact inside, nofun, nofun, nofun⟩
    refine .done (session.setPorts (session.machine.ports.drive byte (byteOf value))) .nothing
      isInside.not_isOutside ?_ ⟨nofun, fun _ => rfl, ?_, rfl, rfl, rfl, fun _ => rfl, ?_⟩
    · simp only [perform, Ports.port_toNat]
      rfl
    · intro place unchanged
      rw [look_setPorts rfl, if_neg]
      rintro rfl
      exact unchanged .driven
    · intro reading answer back
      cases back
      rw [perform_readPort_byte, look_setPorts rfl, if_pos rfl, toNat_byteOf_eq]
  · refine .refused _ (.port rfl inside) ?_
    simp only [perform, Ports.port_of_outside inside]
    rfl

end Ports

section Registers

theorem perform_getRegister_of_mem {text : String} {register : HostRegister}
    (named : (upperCase text, register) ∈ HostRegister.names) :
    session.perform setup patience (.getRegister (.text text)) =
      (session, .ok (.number (session.look (.register register)))) := by
  simp only [perform, HostRegister.ofName_of_mem named]
  rfl

theorem comesOut_getRegister (name : HostValue) :
    session.ComesOut setup patience (.getRegister name) := by
  rcases HostRegister.name_cases name with ⟨text, register, rfl, named⟩ | ⟨unknown, refused⟩
  · have known : upperCase text ∈ HostRegister.names.map fun entry => entry.1 :=
      List.mem_map.2 ⟨_, named, rfl⟩
    have isInside : (Request.getRegister (.text text)).IsInside :=
      ⟨nofun, nofun, nofun, nofun, by rintro _ ⟨⟩; exact ⟨text, rfl, known⟩, nofun⟩
    exact comesOut_of_read rfl isInside.not_isOutside (perform_getRegister_of_mem named)
      (.register named)
  · refine .refused _ (.register rfl unknown) ?_
    simp only [perform, refused]
    rfl

theorem comesOut_setRegister (name : HostValue) (value : Int) :
    session.ComesOut setup patience (.setRegister name value) := by
  rcases HostRegister.name_cases name with ⟨text, register, rfl, named⟩ | ⟨unknown, refused⟩
  · have known : upperCase text ∈ HostRegister.names.map fun entry => entry.1 :=
      List.mem_map.2 ⟨_, named, rfl⟩
    have isWord := HostRegister.isWord_iff named
    by_cases inside : register.isWord = true → 0 ≤ value ∧ value < 65536
    · have isInside : (Request.setRegister (.text text) value).IsInside :=
        ⟨nofun, nofun, nofun, nofun, by rintro _ ⟨⟩; exact ⟨text, rfl, known⟩,
          by rintro _ _ ⟨⟩ word; exact inside (isWord.1 word)⟩
      obtain ⟨registers, written, changed⟩ :=
        session.machine.registers.hostWrite_of_inside inside
      refine .done (session.setRegisters registers) .nothing isInside.not_isOutside ?_
        ⟨nofun, fun _ => rfl, ?_, rfl, changed.interrupts, rfl, fun _ => rfl, ?_⟩
      · have found : (HostRegister.ofName (.text text) >>= fun register =>
            session.machine.registers.hostWrite register value) = .ok registers := by
          rw [HostRegister.ofName_of_mem named]
          exact written
        simp only [perform, found]
        rfl
      · intro place unchanged
        cases place with
        | register other =>
            have distinct : other ≠ register := fun same => unchanged (same ▸ .register named)
            exact congrArg Nat.cast (changed.others other distinct)
        | flag position =>
            have distinct : HostRegister.byte .status ≠ register := by
              rintro rfl
              exact unchanged (.flags (HostRegister.eq_status_of_mem named))
            exact congrArg Bool.toInt
              (Registers.statusBit_of_hostRead position (changed.others _ distinct))
        | _ => rfl
      · intro reading answer back
        have put : (session.setRegisters registers).look (.register register) =
            Registers.hostValue register value := changed.same
        cases back with
        | byte same notWord =>
            have isByte : ¬ register.isWord = true := fun word => notWord (isWord.2 word)
            rw [perform_getRegister_of_mem (same ▸ named), put, Registers.hostValue, if_neg isByte]
        | word same word =>
            rw [perform_getRegister_of_mem (same ▸ named), put, Registers.hostValue,
              if_pos (isWord.1 word)]
    · obtain ⟨word, outside⟩ := Classical.not_imp.1 inside
      refine .refused _ (.value (isWord.2 word) outside) ?_
      have refused := session.machine.registers.hostWrite_of_outside word outside
      rw [HostRegister.wordName_of_mem named word] at refused
      have found : (HostRegister.ofName (.text text) >>= fun register =>
          session.machine.registers.hostWrite register value) =
            .error (.valueOutOfRange (upperCase text) value) := by
        rw [HostRegister.ofName_of_mem named]
        exact refused
      simp only [perform, found]
      rfl
  · refine .refused _ (.register rfl unknown) ?_
    simp only [perform, refused]
    rfl

theorem perform_getFlag_position (position : Fin 8) :
    session.perform setup patience (.getFlag (position.val : Nat)) =
      (session, .ok (.truth (session.machine.registers.statusBit position))) := by
  simp only [perform, statusPosition_val]
  rfl

theorem comesOut_getFlag (position : Int) :
    session.ComesOut setup patience (.getFlag position) := by
  by_cases inside : 0 ≤ position ∧ position < 8
  · obtain ⟨place, rfl⟩ := exists_position inside
    have isInside : (Request.getFlag (place.val : Nat)).IsInside :=
      ⟨nofun, nofun, nofun, by rintro _ ⟨⟩; exact inside, nofun, nofun⟩
    exact comesOut_of_read rfl isInside.not_isOutside (perform_getFlag_position place) (.flag rfl)
  · refine .refused _ (.position rfl inside) ?_
    simp only [perform, statusPosition_of_outside inside]
    rfl

theorem comesOut_setFlag (position : Int) (value : Bool) :
    session.ComesOut setup patience (.setFlag position value) := by
  by_cases inside : 0 ≤ position ∧ position < 8
  · obtain ⟨place, rfl⟩ := exists_position inside
    have isInside : (Request.setFlag (place.val : Nat) value).IsInside :=
      ⟨nofun, nofun, nofun, by rintro _ ⟨⟩; exact inside, nofun, nofun⟩
    refine .done (session.setRegisters (session.machine.registers.setStatusBit place value)) .nothing
      isInside.not_isOutside ?_ ⟨nofun, fun _ => rfl, ?_, rfl, rfl, rfl, fun _ => rfl, ?_⟩
    · simp only [perform, statusPosition_val]
      rfl
    · intro other unchanged
      cases other with
      | register register =>
          cases register with
          | byte register =>
              cases register with
              | status => exact absurd .status unchanged
              | _ => rfl
          | _ => rfl
      | flag other =>
          have distinct : other ≠ place := by
            rintro rfl
            exact unchanged .flag
          have kept := session.machine.registers.statusBit_setStatusBit place other value
          rw [if_neg distinct] at kept
          exact congrArg Bool.toInt kept
      | _ => rfl
    · intro reading answer back
      cases back
      rw [perform_getFlag_position, setRegisters, Registers.statusBit_setStatusBit, if_pos rfl]
  · refine .refused _ (.position rfl inside) ?_
    simp only [perform, statusPosition_of_outside inside]
    rfl

end Registers

/-- Whatever the session and whatever integers, names, bytes and switches the host gives: a request to
read or change memory, ports, registers or flags is refused exactly when one of them names what the
machine does not have, for that reason and with nothing changed; otherwise it is done. -/
theorem perform_comesOut (setup : Setup) (patience : Nat) (session : Session) (request : Request)
    (access : request.isHostAccess = true) : session.ComesOut setup patience request := by
  cases request with
  | readMemory address => exact comesOut_readMemory address
  | writeMemory address value => exact comesOut_writeMemory address value
  | load image base => exact comesOut_load image base
  | snapshot start length => exact comesOut_snapshot (of_decide_eq_true access)
  | readPort port => exact comesOut_readPort port
  | writePort port value => exact comesOut_writePort port value
  | drivePort port value => exact comesOut_drivePort port value
  | getRegister name => exact comesOut_getRegister name
  | setRegister name value => exact comesOut_setRegister name value
  | getFlag position => exact comesOut_getFlag position
  | setFlag position value => exact comesOut_setFlag position value
  | _ => cases access

/-- Two bytes do not fit at the last address, and one of them does. -/
theorem perform_comesOut_of_load :
    (Request.load [1, 2] 65535).IsOutside (.addressOutOfBounds 65536) ∧
      ((initial .standard).perform { table := .standard, config := .standard } 0
        (.load [1, 2] 65535)).2 = .error (.fault (.addressOutOfBounds 65536)) ∧
      (initial .standard).ComesOut { table := .standard, config := .standard } 0
        (.load [1, 2] 65535) ∧
      (initial .standard).ComesOut { table := .standard, config := .standard } 0
        (.load [1] 65535) := by
  have beyond : (65536 : Int) < 65535 + 2 := by decide
  have outside : (Request.load [1, 2] 65535).IsOutside (.addressOutOfBounds (65535 + 2 - 1)) :=
    .stretch rfl (by decide) beyond
  exact ⟨outside, rfl, perform_comesOut _ 0 _ (.load [1, 2] 65535) rfl,
    perform_comesOut _ 0 _ (.load [1] 65535) rfl⟩

end Session

end Intel8085
