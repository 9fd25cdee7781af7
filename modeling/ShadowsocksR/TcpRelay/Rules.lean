import ShadowsocksR.Lib.Triple
import ShadowsocksR.TcpRelay.Handler

/-!
# Rules for the methods of a connection

What the calls of the system do to a condition on the world: nothing, unless it
is about how many there were.

* `Uncounted`: a condition that does not depend on the number of calls;
* `Triple.call` and so on: the rules for the ways to change the world;
* `updateStream_spec`, `destroy_spec`: what two methods do.
-/

namespace ShadowsocksR

namespace TcpRelay

variable {O P E α : Type}

/-- The condition does not depend on the number of calls. -/
def Uncounted (I : World O P E → Prop) : Prop := ∀ w n, I w → I { w with calls := n }

section

variable {I : World O P E → Prop} {Q : α → World O P E → Prop} {R : Raised → World O P E → Prop}

theorem triple_self {I : World O P E → Prop} {R : Raised → World O P E → Prop} :
    Triple I self (fun h w => I w ∧ h = w.self) R := fun _ hw => ⟨hw, rfl⟩

theorem triple_ask (hI : Uncounted I) (f : ℕ → α) : Triple I (ask f) (fun _ => I) R :=
  fun w hw => hI w _ hw

theorem triple_call (hI : Uncounted I) (f : ℕ → Except Errno α) :
    Triple I (call f) (fun _ => I) fun e w => I w ∧ e.isOS = true := by
  refine (triple_ask hI f).bind fun r => ?_
  cases r with
  | ok a => exact .pure fun _ => id
  | error e => exact .throw fun _ hw => ⟨hw, rfl⟩

theorem triple_callRaising (hI : Uncounted I) (f : ℕ → Except Raised α) :
    Triple I (callRaising f) (fun _ => I) fun _ => I := by
  refine (triple_ask hI f).bind fun r => ?_
  cases r with
  | ok a => exact .pure fun _ => id
  | error e => exact .throw fun _ => id

theorem triple_modifySelf {f : Handler O P E → Handler O P E} {Q : Unit → World O P E → Prop} :
    Triple (fun w => Q ⟨⟩ { w with self := f w.self }) (modifySelf f) Q R := fun _ => id

/-- What `except Exception` makes of a method. -/
theorem triple_guarded {m onError : Method O P E Unit} {J K : World O P E → Prop}
    {S : Raised → World O P E → Prop} (h : Triple I m (fun _ => J) S)
    (hE : ∀ e, Triple (S e) onError (fun _ => K) R) :
    Triple I (guarded m onError) (fun b w => if b then J w else K w) R := by
  refine .tryCatch (h.bind fun _ => .pure fun _ hw => ?_) fun e => (hE e).bind fun _ => .pure
    fun _ hw => ?_
  · rwa [if_pos rfl]
  · rwa [if_neg Bool.false_ne_true]

/-- The status changes, whatever becomes of the loop. -/
theorem updateStream_spec (hI : Uncounted I) (env : Env) (stream : Stream) (status : WaitStatus) :
    Triple (fun w => I { w with self := w.self.setStatus stream status })
      (updateStream env stream status) (fun _ => I) fun e w => I w ∧ e.isOS = true := by
  have hcall := triple_call hI env.loopModify
  have hskip : Triple I (pure () : Method O P E Unit) (fun _ => I)
      fun e w => I w ∧ e.isOS = true := .pure fun _ => id
  refine triple_self.bind fun h => ?_
  refine ((triple_modifySelf (Q := fun _ => I)).pre fun w hw => hw.1).bind fun _ => ?_
  refine .ite (fun _ => ?_) fun _ => hskip
  extract_lets jp
  have hjp : ∀ r, Triple I (jp r) (fun _ => I) fun e w => I w ∧ e.isOS = true := fun r =>
    .ite (fun _ => hcall.bind fun _ => .ite (fun _ => hcall) fun _ => hskip) fun _ => hskip
  exact .ite (fun _ => hcall.bind hjp) fun _ => hjp ()

end

/-- The address is in `forbidden_ip`, or the port in `forbidden_port`. -/
def Setup.forbids {O P E : Type} (c : Setup O P E) (a : SockAddr) : Bool :=
  c.forbiddenIplist.any (·.contains a.ip) || c.forbiddenPortset.any fun s => a.port ∈ s

/-- What a socket has done when it was given data. -/
def accepted (sock : Sock) (data : Bytes) : Except Errno ℕ → List Effect
  | .ok n => [.send sock (data.take n)]
  | .error _ => []

/-- `send` returns what the system does, and the socket has accepted as much. -/
theorem send_eq (env : Env) (sock : Sock) (data : Bytes) (w : World O P E) :
    send env sock data w = .ok (env.send w.sends)
      { w with
        sends := w.sends + 1
        self := { w.self with log := w.self.log ++ accepted sock data (env.send w.sends) } } := by
  have hrun : send env sock data w = (match env.send w.sends with
      | .ok n => do
        emit (.send sock (data.take n))
        return .ok n
      | .error e => return .error e : Method O P E (Except Errno ℕ)) { w with sends := w.sends + 1 } :=
    rfl
  rw [hrun]
  cases env.send w.sends with
  | ok n => rfl
  | error e => simp [accepted, pure, EStateM.pure]

end TcpRelay

end ShadowsocksR
