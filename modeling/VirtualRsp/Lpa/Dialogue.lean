import VirtualRsp.Lpa.ManageProfiles
import VirtualRsp.Protocol.Messages

/-!
# What the LPA says

The applets of the LPA talk to the card and to servers, and print lines. Their partners may answer
anything (`Partner`); what the LPA says to them, and what it hears, is recorded in the order in
which it happens (`Dialogue`).
-/

namespace VirtualRsp.Lpa

open Program

variable {σ : Type}

/-! ## Partners -/

/-- The card and the servers, as the LPA reaches them. -/
structure Partner (σ : Type) where
  command : Bytes → Program σ Bytes
  transmit : Bytes → Bytes → Program σ (ℕ × Bytes)

/-- What the LPA says and hears: a command to the card with the response, a text for a server with
the status code and the body of the answer, or a line of its output. -/
inductive Exchange
  | command (request : Bytes) (response : Option Bytes)
  | post (url text : Bytes) (answer : Option (ℕ × Bytes))
  | print (line : Bytes)

/-- The request of a command. -/
def Exchange.request : Exchange → Option Bytes
  | .command request _ => some request
  | _ => none

/-- The partners, and what was said. -/
structure Dialogue (σ : Type) where
  partner : σ
  log : List Exchange

/-- A command to the card. -/
def Partner.send (p : Partner σ) (request : Bytes) : Program (Dialogue σ) Bytes := fun d =>
  (p.command request d.partner).map fun r => (⟨r.1, d.log ++ [.command request r.2]⟩, r.2)

/-- A text for a server. -/
def Partner.post (p : Partner σ) (url text : Bytes) : Program (Dialogue σ) (ℕ × Bytes) := fun d =>
  (p.transmit url text d.partner).map fun r => (⟨r.1, d.log ++ [.post url text r.2]⟩, r.2)

/-- A line of output. -/
def printLine (line : Bytes) : Program (Dialogue σ) Unit :=
  alter fun d => { d with log := d.log ++ [.print line] }

variable {p : Partner σ} {d t : Dialogue σ}

theorem send_log {request : Bytes} {response : Option Bytes}
    (h : p.send request d = some (t, response)) :
    t.log = d.log ++ [.command request response] := by
  obtain ⟨r, -, h⟩ := Option.map_eq_some_iff.1 h
  cases h
  rfl

theorem post_log {url text : Bytes} {answer : Option (ℕ × Bytes)}
    (h : p.post url text d = some (t, answer)) : t.log = d.log ++ [.post url text answer] := by
  obtain ⟨r, -, h⟩ := Option.map_eq_some_iff.1 h
  cases h
  rfl

/-- Reading a response that the command may not have. -/
theorem send_ofOption {α : Type} {request : Bytes} {read : Bytes → Option α} {r : Option α}
    (h : (p.send request >>= fun respbuf => .ofOption (read respbuf)) d = some (t, r)) :
    ∃ response, t.log = d.log ++ [.command request response] ∧ r = response.bind read := by
  obtain ⟨hsend, rfl⟩ | ⟨respbuf, u, hsend, h⟩ := bind_cases h
  · exact ⟨none, send_log hsend, rfl⟩
  · refine ⟨some respbuf, ?_, ?_⟩
    · rw [← send_log hsend]
      cases hread : read respbuf with
      | none => rw [hread] at h; cases h; rfl
      | some a => rw [hread] at h; cases h; rfl
    · cases hread : read respbuf with
      | none => rw [hread] at h; cases h; exact hread.symm
      | some a => rw [hread] at h; cases h; exact hread.symm

/-- Reading a response may also fault. -/
theorem send_liftFault {α : Type} {request : Bytes} {read : Bytes → Option (Option α)}
    {r : Option α}
    (h : (p.send request >>= fun respbuf => liftFault (read respbuf)) d = some (t, r)) :
    ∃ response, t.log = d.log ++ [.command request response] ∧
      some r = response.elim (some none) read := by
  obtain ⟨hsend, rfl⟩ | ⟨respbuf, u, hsend, h⟩ := bind_cases h
  · exact ⟨none, send_log hsend, rfl⟩
  · obtain ⟨r', hread, h⟩ := Option.map_eq_some_iff.1 h
    cases h
    exact ⟨some respbuf, send_log hsend, hread.symm⟩

/-- A result was read from a response. -/
theorem response_of_read {α : Type} {read : Bytes → Option (Option α)} {response : Option Bytes}
    {a : α} (h : some (some a) = response.elim (some none) read) :
    ∃ respbuf, response = some respbuf ∧ read respbuf = some (some a) := by
  cases response with
  | none => cases h
  | some respbuf => exact ⟨respbuf, rfl, h.symm⟩

end VirtualRsp.Lpa
