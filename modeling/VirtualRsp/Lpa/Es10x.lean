import VirtualRsp.Card.Frame
import VirtualRsp.Foundations.Program

/-!
# Commands from the LPA to the card

`es10xCommand` sends a command over a transport and splits the status word from the response. The
LPA's functions take it as a parameter; `cardTransport` is the transport that hands a command
straight to the card.
-/

namespace VirtualRsp.Lpa

variable {σ : Type}

/-- Send a command: an empty one is not sent at all, a response must have a status word, and only a
status word `9x..` is success. The card never asks the LPA to fetch more of a response. -/
def es10xCommand (transmit : Bytes → Program σ Bytes) (derReq : Bytes) : Program σ Bytes :=
  if derReq = [] then pure []
  else do
    let response ← transmit derReq
    let sw1 ← .ofOption
      (if response.length < 2 then none else readAt response (response.length - 2))
    if sw1 / 16 = 9 then return response.take (response.length - 2) else .fail

/-- The card as a partner of the LPA: its state and the number of commands it has served, each in
an environment of its own. -/
structure CardSession where
  served : ℕ
  state : Card.EuiccState

/-- Hand a command to the card. -/
def cardTransport (env : ℕ → Card.Env) (cmd : Bytes) : Program CardSession Bytes := fun session =>
  (Card.processEs10xCommand (env session.served) session.state
    (.ofBytes (env session.served) cmd)).map fun r => (⟨session.served + 1, r.1⟩, r.2)

/-- **A command to the card** returns a body exactly if the card answers with that body and the
status word `9000`. -/
theorem es10xCommand_card {env : ℕ → Card.Env} {cmd body : Bytes} {c c' : CardSession}
    (hcmd : cmd ≠ []) :
    (es10xCommand (cardTransport env) cmd).Returns c body c' ↔
      ∃ s, Card.processEs10xCommand (env c.served) c.state (.ofBytes (env c.served) cmd) =
          some (s, some (body ++ [0x90, 0x00])) ∧ c' = ⟨c.served + 1, s⟩ := by
  rw [es10xCommand, if_neg hcmd, Program.returns_bind]
  constructor
  · rintro ⟨r, t, hr, h⟩
    obtain ⟨⟨s, o⟩, hp, he⟩ := Option.map_eq_some_iff.1 hr
    cases he
    obtain ⟨sw1, t, hsw, h⟩ := Program.returns_bind.1 h
    obtain ⟨hsw1, rfl⟩ := Program.returns_ofOption.1 hsw
    obtain ⟨-, -, hr⟩ | ⟨-, inner, es10x, -, ⟨-, -, hr⟩ | ⟨r', -, -, hr⟩⟩ :=
      Card.processEs10xCommand_cases hp
    · cases hr
    · -- an unsupported command is answered with the status word `6D00`
      cases hr
      cases hsw1
      exact absurd h Program.returns_fail
    · obtain ⟨b, rfl, rfl⟩ := Option.map_eq_some_iff.1 hr.symm
      simp only [List.length_append, List.length_cons, List.length_nil, Nat.reduceAdd,
        Nat.add_sub_cancel, Nat.not_lt.2 (Nat.le_add_left _ _), if_false,
        readAt_append_right le_rfl, Nat.sub_self] at hsw1
      cases hsw1
      rw [if_pos (by decide)] at h
      obtain ⟨rfl, rfl⟩ := Program.returns_pure.1 h
      refine ⟨s, ?_, rfl⟩
      rw [hp]
      simp
  · rintro ⟨s, hp, rfl⟩
    refine ⟨_, ⟨c.served + 1, s⟩, by rw [Program.Returns, cardTransport, hp]; rfl, ?_⟩
    refine Program.returns_bind.2 ⟨0x90, _, Program.returns_ofOption.2 ⟨?_, rfl⟩, ?_⟩
    · simp [readAt_append_right]
    · exact Program.returns_pure.2 ⟨by simp, rfl⟩

end VirtualRsp.Lpa
