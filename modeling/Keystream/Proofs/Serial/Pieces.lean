import Keystream.Oracle
import Keystream.Proofs.Serial.Alike
import Keystream.Serial.HostEnd
import Keystream.Serial.ProgramEnd
/-!
In which pieces bytes arrive. Whatever is done at a link, at either end of a line and in any order,
comes to the same for all the pieces in which a port may hand over what waits on it, so long as it
hands over at least a byte at a time.
-/
namespace Keystream

open Keystream.Action Port

namespace ProgramEnd

variable {machine : Machine} {μ : Type} {R : μ → μ → Prop}

theorem respects_inside {σ : Type} {R : σ → σ → Prop} {a : Action σ α} (respects : Respects R a) :
    Respects R (inside a) := by
  refine Agree.bind (Respects.tryCatch (respects.bind fun _ => respects_pure _) fun e => ?_)
    fun r => ?_
  · exact respects_ite (respects_pure _) (respects_throw _)
  · cases r <;> exact respects_pure _

theorem respects_serve (mem : MemoryAccess μ) (magic : Int) (s : Bytes) :
    Respects (Tied Eq Link.Alike) (serve mem magic s) := by
  have replies (magic status response : Int) :
      Respects (Tied Eq Link.Alike)
        ((Link.reply magic status response).onSecond : Action (μ × Link) Unit) :=
    (Link.respects_reply _ _ _).onSecond
  refine (respects_liftM _).bind fun request => respects_ite (replies _ _ _) (respects_ite ?_ ?_)
  · refine (Link.respects_readFull _).onSecond.bind fun _ =>
      (Link.respects_readFull _).onSecond.bind fun _ => respects_ite (replies _ _ _) ?_
    refine (respects_inside (respects_eq _).onFirst).bind fun r => ?_
    cases r <;> exact replies _ _ _
  · refine (respects_inside (respects_eq _).onFirst).bind fun r => ?_
    cases r with
    | none => exact replies _ _ _
    | some s =>
      exact ((Link.respects_reply _ _ _).bind fun _ => Link.respects_write _).onSecond

theorem respects_await (mem : Option (MemoryAccess μ)) (magic : Int) (turns : Nat) :
    Respects (Tied Eq Link.Alike) (await mem magic turns) := by
  induction turns with
  | zero => exact respects_throw _
  | succ turns ih =>
    refine Link.respects_receive.onSecond.bind fun s => ?_
    cases mem with
    | none => exact respects_liftM _
    | some access =>
      exact respects_ite ((respects_serve access _ s).bind fun _ => ih) (respects_liftM _)

theorem respects_setTimeout (timeout : Option Seconds) :
    Respects Link.Alike (setTimeout timeout) :=
  respects_modify fun _ _ alike => alike.with_port
    ⟨alike.port.unread, alike.port.sent, rfl, alike.port.hands, alike.port.hands'⟩

theorem respects_request (mem : Option (MemoryAccess μ)) (magic first second : Int) :
    Respects (Tied Eq Link.Alike) (request mem magic first second) := by
  refine Agree.bind ((respects_liftM _).bind fun _ => Link.respects_transmit _).onSecond fun _ =>
    agree_get_bind fun s t tied => ?_
  simp only [tied.2.port.unread, tied.2.port.timeout]
  exact (respects_setTimeout none).onSecond.bind fun _ =>
    (respects_await mem magic _).ensuring (respects_setTimeout _).onSecond

end ProgramEnd

/-- Whether a host cannot tell worlds apart that `R` ties together. -/
structure Host.Respects {σ : Type} (R : σ → σ → Prop) (host : Host σ) : Prop where
  signal : ∀ sig value, Action.Respects R (host.signal sig value)
  halt : Action.Respects R host.halt

namespace HostEnd

variable {machine : Machine} {η : Type} {Q : η → η → Prop} {host : Host (Link × η)}

theorem respects_serveOne (respects : host.Respects (Tied Link.Alike Q)) :
    Respects (Tied Link.Alike Q) (serveOne host) := by
  have replies (magic status response : Int) :
      Respects (Tied Link.Alike Q)
        ((Link.reply magic status response).onFirst : Action (Link × η) Unit) :=
    (Link.respects_reply _ _ _).onFirst
  have dispatches (magic : Int) (s : Bytes) :
      Respects (Tied Link.Alike Q) (dispatch host magic s) := by
    rw [dispatch]
    exact respects_check ((respects_liftM _).bind fun _ => respects.signal _ _)
  refine Link.respects_receive.onFirst.bind fun s => respects_ite ?_ ?_
  · exact respects.halt.bind fun _ => respects_pure _
  · refine Agree.bind (Respects.tryCatch (dispatches _ s) fun e => ?_) fun answer => ?_
    · exact (replies _ _ _).bind fun _ => respects_throw _
    · exact (replies _ _ _).bind fun _ => respects_pure _

theorem respects_serveUpTo (respects : host.Respects (Tied Link.Alike Q)) (turns : Nat) :
    Respects (Tied Link.Alike Q) (serveUpTo host turns) := by
  induction turns with
  | zero => exact respects_pure _
  | succ turns ih =>
    exact (respects_serveOne respects).bind fun _ => respects_ite ih (respects_pure _)

theorem respects_serve (respects : host.Respects (Tied Link.Alike Q)) :
    Respects (Tied Link.Alike Q) (serve host) := by
  refine agree_get_bind fun s t tied => ?_
  rw [tied.1.port.unread]
  exact respects_serveUpTo respects _

end HostEnd

namespace Oracle

variable {machine : Machine} {μ : Type} {R : μ → μ → Prop} {mem : MemoryAccess μ}

section

variable (reads : ∀ addr size, Respects R (mem.read addr size))
include reads

variable (writes : ∀ addr s, Respects R (mem.write addr s))
include writes

end

end Oracle

/-! What can be done at a link. -/

inductive Link.Answer where
  | done
  | bytes (s : Bytes)
  | number (n : Int)
  | word (w : Word)
  | value (v : Value)
  /-- Whether there is more to serve. -/
  | goesOn (more : Bool)
  | heard (answer : Option Int)

namespace Link

inductive Call where
  | feed (s : Bytes)
  | readFull (size : Int)
  | sync
  | receive
  | turnConsole (shown : Bool)
  | sendFields (layout : Layout) (fields : List (String × Value))
  | reply (magic status told : Int)
  | response (expected magic : Int) (s : Bytes)
  | read (addr size : Int)
  | write (addr : Int) (s : Bytes)
  | readWord (addr : Int)
  | writeWord (addr v : Int)
  | readValue (addr : Int) (layout : Layout)

def Call.perform [Machine] : Call → Action Link Answer
  | feed s => do
    modify fun l => { l with port := { l.port with unread := l.port.unread ++ s } }
    return .done
  | readFull size => return .bytes (← Link.readFull size)
  | sync => return .bytes (← Link.sync)
  | receive => return .bytes (← Link.receive)
  | turnConsole shown => do
    modify fun l => { l with console := shown }
    return .done
  | sendFields layout fields => do
    Link.sendFields layout fields
    return .done
  | reply magic status told => do
    Link.reply magic status told
    return .done
  | response expected magic s => return .number (← Frame.response expected magic s)
  | read addr size => return .bytes (← RemoteMemory.read addr size)
  | write addr s => do
    RemoteMemory.write addr s
    return .done
  | readWord addr => return .word (← RemoteMemory.readWord addr)
  | writeWord addr v => do
    RemoteMemory.writeWord addr v
    return .done
  | readValue addr layout => return .value (← RemoteMemory.readValue addr layout)

theorem Call.respects [Machine] (call : Call) : Respects Alike call.perform := by
  have gives {α : Type} {a : Action Link α} (respects : Respects Alike a) (f : α → Answer) :
      Respects Alike (do return f (← a)) :=
    respects.bind fun _ => respects_pure _
  cases call with
  | feed s =>
    refine gives (respects_modify fun l m alike => alike.with_port ?_) _
    exact ⟨congrArg (· ++ s) alike.port.unread, alike.port.sent, alike.port.timeout,
      alike.port.hands, alike.port.hands'⟩
  | turnConsole shown =>
    have turned :
        Respects Alike (modify fun l => { l with console := shown } : Action Link PUnit) :=
      respects_modify fun l m alike => ⟨alike.port, alike.traced, rfl, alike.lineBegun⟩
    exact gives turned _
  | readFull size => exact gives (respects_readFull size) _
  | sync => exact gives respects_sync _
  | receive => exact gives respects_receive _
  | sendFields layout fields => exact gives (respects_sendFields layout fields) _
  | reply magic status told => exact gives (respects_reply magic status told) _
  | response expected magic s => exact gives (respects_liftM _) _
  | read addr size => exact gives (RemoteMemory.respects_read addr size) _
  | write addr s => exact gives (RemoteMemory.respects_write addr s) _
  | readWord addr => exact gives (RemoteMemory.respects_readWord addr) _
  | writeWord addr v => exact gives (RemoteMemory.respects_write addr _) _
  | readValue addr layout => exact gives (RemoteMemory.respects_readValue addr layout) _

end Link

namespace ProgramEnd

inductive Call (μ : Type) where
  | link (call : Link.Call)
  | signal (sig value : Int)
  | halt
  | request (magic first second : Int)
  | serve (mem : MemoryAccess μ) (magic : Int) (s : Bytes)
  | beside (a : Action μ Link.Answer)

variable {μ : Type}

def Call.perform [Machine] (mem : Option (MemoryAccess μ)) : Call μ → Action (μ × Link) Link.Answer
  | link call => call.perform.onSecond
  | signal sig value => return .number (← (channel mem).signal sig value)
  | halt => do
    (channel mem).halt
    return .done
  | request magic first second => return .number (← ProgramEnd.request mem magic first second)
  | serve mem magic s => do
    ProgramEnd.serve mem magic s
    return .done
  | beside a => a.onFirst

theorem Call.respects [Machine] (mem : Option (MemoryAccess μ)) (call : Call μ) :
    Respects (Tied Eq Link.Alike) (call.perform mem) := by
  cases call with
  | link call => exact call.respects.onSecond
  | signal sig value => exact (respects_request mem _ _ _).bind fun _ => respects_pure _
  | halt =>
    exact ((respects_liftM _).bind fun _ => Link.respects_transmit _).onSecond.bind fun _ =>
      respects_pure _
  | request magic first second =>
    exact (respects_request mem _ _ _).bind fun _ => respects_pure _
  | serve mem magic s => exact (respects_serve mem _ _).bind fun _ => respects_pure _
  | beside a => exact (respects_eq a).onFirst

end ProgramEnd

namespace HostEnd

inductive Call (η : Type) where
  | link (call : Link.Call)
  | serveOne
  | serve
  | signal (sig value : Int)
  | halt
  | beside (a : Action η Link.Answer)

variable {η : Type}

def Call.perform [Machine] (host : Host (Link × η)) : Call η → Action (Link × η) Link.Answer
  | link call => call.perform.onFirst
  | serveOne => return .goesOn (← HostEnd.serveOne host)
  | serve => do
    HostEnd.serve host
    return .done
  | signal sig value => return .heard (← host.signal sig value)
  | halt => do
    host.halt
    return .done
  | beside a => a.onSecond

theorem Call.respects [Machine] {host : Host (Link × η)}
    (respects : host.Respects (Tied Link.Alike Eq)) (call : Call η) :
    Respects (Tied Link.Alike Eq) (call.perform host) := by
  cases call with
  | link call => exact call.respects.onFirst
  | serveOne => exact (respects_serveOne respects).bind fun _ => respects_pure _
  | serve => exact (respects_serve respects).bind fun _ => respects_pure _
  | signal sig value => exact (respects.signal sig value).bind fun _ => respects_pure _
  | halt => exact respects.halt.bind fun _ => respects_pure _
  | beside a => exact (respects_eq a).onSecond

end HostEnd

namespace Link

end Link

end Keystream
