import Bhasha.Parse.Program

/-!
# Contracts of parsers that are heard

A listener takes every report down with the token it blames.  A contract says what a parser may have
read when it is done: the tokens it took off the front, the tokens it left, its value and the faults
it told.  A parser that bails out always leaves a fatal fault as its last word, and that fault
blames the first of the tokens that are left.  Contracts of the parts of a parser compose along
`>>=`.

The fuel of the grammar is not hidden by a contract: a parser without fuel bails out in silence and
meets no contract at all.
-/

namespace Bhasha.Parse

/-- The listener that takes faults down; `finish` is blamed where no token is left. -/
def hear (finish : Token) : Listener (Recorded SyntaxFault) :=
  fun r => Recorded.note (r.attach finish)

/-- A relation between the tokens read, the tokens left, the value and the faults. -/
abbrev Contract (α : Type) : Type := List Token → List Token → α → List SyntaxFault → Prop

/-- The last fault is fatal and blames the first of the tokens left. -/
def EndsFatally (finish : Token) (rest : List Token) (faults : List SyntaxFault) : Prop :=
  ∃ before fault, faults = before ++ [⟨rest.headD finish, fault⟩] ∧ fault.isFatal = true

/-- What is left is the end of what was given, and a parser that is done keeps its contract. -/
def Meets {α : Type} (finish : Token) (contract : Contract α) (ts : List Token)
    (r : Recorded SyntaxFault (Outcome α)) : Prop :=
  match r.value with
  | .done value rest => ∃ taken, ts = taken ++ rest ∧ contract taken rest value r.records
  | .bail rest => ∃ taken, ts = taken ++ rest ∧ EndsFatally finish rest r.records

variable {ρ α β : Type} {finish : Token} {ts : List Token}

theorem EndsFatally.after {rest : List Token} {faults : List SyntaxFault}
    (h : EndsFatally finish rest faults) (earlier : List SyntaxFault) :
    EndsFatally finish rest (earlier ++ faults) := by
  obtain ⟨before, fault, rfl, fatal⟩ := h
  exact ⟨earlier ++ before, fault, by simp, fatal⟩

theorem EndsFatally.exists_fatal {rest : List Token} {faults : List SyntaxFault}
    (h : EndsFatally finish rest faults) : ∃ f ∈ faults, f.fault.isFatal = true := by
  obtain ⟨before, fault, rfl, fatal⟩ := h
  exact ⟨⟨rest.headD finish, fault⟩, by simp, fatal⟩

theorem bind_apply (p : Parser (Recorded ρ) α) (f : α → Parser (Recorded ρ) β)
    (ts : List Token) :
    (p >>= f) ts = (p ts >>= fun outcome : Outcome α =>
      match outcome with
      | .done value rest => f value rest
      | .bail rest => pure (.bail rest) : Recorded ρ (Outcome β)) := rfl

theorem bind_of_done {p : Parser (Recorded ρ) α} {f : α → Parser (Recorded ρ) β} {value : α}
    {rest : List Token} {notes : List ρ} (h : p ts = ⟨.done value rest, notes⟩) :
    (p >>= f) ts = ⟨(f value rest).value, notes ++ (f value rest).records⟩ := by
  rw [bind_apply, h]
  rfl

theorem bind_of_bail {p : Parser (Recorded ρ) α} {f : α → Parser (Recorded ρ) β}
    {rest : List Token} {notes : List ρ} (h : p ts = ⟨.bail rest, notes⟩) :
    (p >>= f) ts = ⟨.bail rest, notes⟩ := by
  rw [bind_apply, h]
  exact congrArg (Recorded.mk _) (List.append_nil notes)

theorem recover_of_done {p : Parser (Recorded ρ) α} {value : α} {rest : List Token}
    {notes : List ρ} (h : p ts = ⟨.done value rest, notes⟩) :
    recover p ts = ⟨.done (some value) rest, notes⟩ := by
  simp [recover, bind, pure, h]

theorem recover_of_bail {p : Parser (Recorded ρ) α} {rest : List Token} {notes : List ρ}
    (h : p ts = ⟨.bail rest, notes⟩) : recover p ts = ⟨.done none (resume rest), notes⟩ := by
  simp [recover, bind, pure, h]

theorem recorded_of_done {inner : List Stmt} {rest : List Token} {faults : List SyntaxFault}
    (h : program (hear (endToken ts)) (body ts) = ⟨.done inner rest, faults⟩) :
    recorded ts = ⟨inner, faults⟩ := by
  change (program (hear (endToken ts)) (body ts) >>= _) = _
  rw [h]
  exact congrArg (Recorded.mk _) (List.append_nil faults)

theorem accept_cons (wanted : Kind → Bool) (t : Token) (rest : List Token) :
    (accept wanted : Parser (Recorded ρ) (Option Token)) (t :: rest) =
      if wanted t.kind then ⟨.done (some t) rest, []⟩ else ⟨.done none (t :: rest), []⟩ := rfl

theorem expect_cons (kind : Kind) (fault : Fault) (t : Token) (rest : List Token) :
    expect (hear finish) kind fault (t :: rest) =
      if t.kind = kind then ⟨.done t rest, []⟩ else fail (hear finish) fault (t :: rest) := rfl

/-- What the first part took and told stands before what the second part takes and tells. -/
theorem Meets.bind {first : Contract α} {whole : Contract β}
    {p : Parser (Recorded SyntaxFault) α} {f : α → Parser (Recorded SyntaxFault) β}
    (hp : Meets finish first ts (p ts))
    (hf : ∀ taken rest value faults, ts = taken ++ rest → first taken rest value faults →
      Meets finish (fun more left result told => whole (taken ++ more) left result (faults ++ told))
        rest (f value rest)) :
    Meets finish whole ts ((p >>= f) ts) := by
  rcases hr : p ts with ⟨outcome, faults⟩
  rw [hr] at hp
  cases outcome with
  | bail rest =>
    rw [bind_of_bail hr]
    exact hp
  | done value rest =>
    obtain ⟨taken, split, kept⟩ := hp
    have after := hf taken rest value faults split kept
    rw [bind_of_done hr]
    rcases hs : f value rest with ⟨outcome', told⟩
    rw [hs] at after
    cases outcome' with
    | bail left =>
      obtain ⟨more, split', fatal⟩ := after
      exact ⟨taken ++ more, by simp [split, split'], fatal.after faults⟩
    | done result left =>
      obtain ⟨more, split', kept'⟩ := after
      exact ⟨taken ++ more, by simp [split, split'], kept'⟩

theorem Meets.weaken {strong weak : Contract α} {r : Recorded SyntaxFault (Outcome α)}
    (h : Meets finish strong ts r)
    (imp : ∀ taken rest value faults, ts = taken ++ rest → strong taken rest value faults →
      weak taken rest value faults) :
    Meets finish weak ts r := by
  rcases r with ⟨outcome, faults⟩
  cases outcome with
  | bail rest => exact h
  | done value rest =>
    obtain ⟨taken, split, kept⟩ := h
    exact ⟨taken, split, imp _ _ _ _ split kept⟩

theorem Meets.congr {contract : Contract α} {p q : Parser (Recorded SyntaxFault) α} (same : p = q)
    (h : Meets finish contract ts (q ts)) : Meets finish contract ts (p ts) := by
  rw [same]
  exact h

theorem meets_pure {contract : Contract α} {value : α} (h : contract [] ts value []) :
    Meets finish contract ts ((pure value : Parser (Recorded SyntaxFault) α) ts) :=
  ⟨[], rfl, h⟩

theorem Meets.map {contract : Contract α} {p : Parser (Recorded SyntaxFault) α} (f : α → β)
    (hp : Meets finish contract ts (p ts)) :
    Meets finish (fun taken rest result told =>
      ∃ value, result = f value ∧ contract taken rest value told) ts ((f <$> p) ts) := by
  refine hp.bind ?_
  intro taken rest value told _ kept
  exact meets_pure ⟨value, rfl, by simpa using kept⟩

theorem pure_meets {whole : Contract β} {f : α → Parser (Recorded SyntaxFault) β} {value : α}
    (h : Meets finish whole ts (f value ts)) :
    Meets finish whole ts (((pure value : Parser (Recorded SyntaxFault) α) >>= f) ts) := h

theorem ahead_meets {whole : Contract β} {f : List Token → Parser (Recorded SyntaxFault) β}
    (h : Meets finish whole ts (f ts ts)) :
    Meets finish whole ts (((ahead : Parser (Recorded SyntaxFault) (List Token)) >>= f) ts) := h

theorem nextIs_meets {whole : Contract β} {f : Bool → Parser (Recorded SyntaxFault) β} {kind : Kind}
    (h : Meets finish whole ts (f (ts.head?.any (·.kind == kind)) ts)) :
    Meets finish whole ts (((nextIs kind : Parser (Recorded SyntaxFault) Bool) >>= f) ts) := h

/-- Either a wanted token is read, or the next one, if there is one, is not wanted. -/
theorem accept_meets (wanted : Kind → Bool) :
    Meets finish (fun taken rest value faults => faults = [] ∧
      ((∃ t, value = some t ∧ taken = [t] ∧ wanted t.kind = true) ∨
        (value = none ∧ taken = [] ∧ rest.head?.any (wanted ·.kind) = false))) ts
      ((accept wanted : Parser (Recorded SyntaxFault) (Option Token)) ts) := by
  cases ts with
  | nil => exact ⟨[], rfl, rfl, Or.inr ⟨rfl, rfl, rfl⟩⟩
  | cons t rest =>
    rw [accept_cons]
    by_cases wants : wanted t.kind = true
    · rw [if_pos wants]
      exact ⟨[t], rfl, rfl, Or.inl ⟨t, rfl, rfl, wants⟩⟩
    · rw [if_neg wants]
      exact ⟨[], rfl, rfl, Or.inr ⟨rfl, rfl, by simpa using wants⟩⟩

theorem reportAt_meets (place : List Token) (fault : Fault) :
    Meets finish (fun taken _ _ faults => taken = [] ∧ faults = [⟨place.headD finish, fault⟩]) ts
      (reportAt (hear finish) place fault ts) :=
  ⟨[], rfl, rfl, rfl⟩

theorem fail_meets {contract : Contract α} {fault : Fault} (fatal : fault.isFatal = true) :
    Meets finish contract ts (fail (hear finish) fault ts) :=
  ⟨[], rfl, [], fault, rfl, fatal⟩

theorem expect_meets {kind : Kind} {fault : Fault} (fatal : fault.isFatal = true) :
    Meets finish (fun taken _ value faults => taken = [value] ∧ value.kind = kind ∧ faults = []) ts
      (expect (hear finish) kind fault ts) := by
  cases ts with
  | nil => exact fail_meets fatal
  | cons t rest =>
    rw [expect_cons]
    by_cases same : t.kind = kind
    · rw [if_pos same]
      exact ⟨[t], rfl, rfl, same, rfl⟩
    · rw [if_neg same]
      exact fail_meets fatal

end Bhasha.Parse
