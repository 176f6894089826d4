import Bhasha.Proofs.Parse.Alike
import Bhasha.Proofs.Parse.Horizon

/-!
# Drafts

The kinds of the tokens alone decide how a list of tokens is parsed.  What is parsed from
placeholders, of which only the kinds are known, is a draft: trees with the right shape in which
every token, and every number and text, is a place in the list.  Filling the places with the tokens
of any list of these kinds gives what is parsed from that list, its trees as well as its faults.

So lists of the same kinds are parsed to trees of one shape, with the same faults at the same
places, and a change of the tokens that leaves their kinds alone is carried through to the result
token by token.
-/

namespace Bhasha

open Parse Grammar

namespace Parse

/-- Tokens of which only the kinds are known, with an end of the input behind them.  Each bears its
place, as its line and as its literal. -/
def placeholders (ks : List Kind) : List Token :=
  (List.range (ks.length + 1)).map fun place => ⟨ks.getD place .eof, [], .whole place, place⟩

/-- The token at a place of a list; behind the last one stands the end of the input. -/
def tokenAt (ts : List Token) (place : Nat) : Token := ts.getD place (endToken ts)

end Parse

/-- The place that a placeholder bears. -/
def Token.place (t : Token) : Nat := t.line.toNat

/-- A place is filled with the literal of the token there; constants stay. -/
def Literal.fill (tokens : Nat → Token) : Literal → Literal
  | .whole place => (tokens place.toNat).literal
  | value => value

namespace Expr

mutual

/-- The expression with the tokens at its places. -/
def fill (tokens : Nat → Token) : Expr → Expr
  | .literal value => .literal (value.fill tokens)
  | .identifier name => .identifier (tokens name.place)
  | .assign name value => .assign (tokens name.place) (value.fill tokens)
  | .logical left operator right =>
    .logical (left.fill tokens) (tokens operator.place) (right.fill tokens)
  | .binary left operator right =>
    .binary (left.fill tokens) (tokens operator.place) (right.fill tokens)
  | .unary operator right => .unary (tokens operator.place) (right.fill tokens)
  | .call callee paren given =>
    .call (callee.fill tokens) (tokens paren.place) (fillAll tokens given)
  | .bareCall callee paren => .bareCall (callee.fill tokens) (tokens paren.place)
  | .grouping inner => .grouping (inner.fill tokens)

def fillAll (tokens : Nat → Token) : List Expr → List Expr
  | [] => []
  | first :: rest => first.fill tokens :: fillAll tokens rest

end

end Expr

namespace Stmt

mutual

/-- The statement with the tokens at its places. -/
def fill (tokens : Nat → Token) : Stmt → Stmt
  | .expression value => .expression (value.fill tokens)
  | .print value => .print (value.fill tokens)
  | .declare name none => .declare (tokens name.place) none
  | .declare name (some value) => .declare (tokens name.place) (some (value.fill tokens))
  | .block inner => .block (fillAll tokens inner)
  | .bareBlock => .bareBlock
  | .branch condition consequent none =>
    .branch (condition.fill tokens) (consequent.fill tokens) none
  | .branch condition consequent (some alternative) =>
    .branch (condition.fill tokens) (consequent.fill tokens) (some (alternative.fill tokens))
  | .loop condition body => .loop (condition.fill tokens) (body.fill tokens)

def fillAll (tokens : Nat → Token) : List Stmt → List Stmt
  | [] => []
  | first :: rest => first.fill tokens :: fillAll tokens rest

end

end Stmt

namespace Parse

/-- The fault with the token at its place. -/
def SyntaxFault.fill (tokens : Nat → Token) (f : SyntaxFault) : SyntaxFault :=
  ⟨tokens f.token.place, f.fault⟩

/-- What is parsed, with the tokens at the places of its trees and of its faults. -/
def fillIn (tokens : Nat → Token) (parsed : Recorded SyntaxFault (List Stmt)) :
    Recorded SyntaxFault (List Stmt) :=
  ⟨Stmt.fillAll tokens parsed.value, parsed.records.map (SyntaxFault.fill tokens)⟩

/-- What is parsed when only the kinds are known. -/
def draft (ks : List Kind) : Recorded SyntaxFault (List Stmt) := recorded (placeholders ks)

/-- A placeholder of a token: it has the kind of the token, and the token stands at its place. -/
structure HoldsPlaceOf (tokens : Nat → Token) (p t : Token) : Prop where
  kind : p.kind = t.kind
  literal : p.literal = .whole p.line
  token : t = tokens p.place

end Parse

variable {tokens : Nat → Token}

mutual

theorem Expr.Alike.fill {e e' : Expr} :
    Expr.Alike (HoldsPlaceOf tokens) e e' → e.fill tokens = e'
  | .constant fixed => by
    obtain rfl | ⟨b, rfl⟩ := fixed <;> rfl
  | .literal _ same => by
    rw [Expr.fill, same.literal, same.token]
    rfl
  | .identifier same => by
    rw [Expr.fill, ← same.token]
  | .assign same value => by
    rw [Expr.fill, ← same.token, value.fill]
  | .logical left same right => by
    rw [Expr.fill, ← same.token, left.fill, right.fill]
  | .binary left same right => by
    rw [Expr.fill, ← same.token, left.fill, right.fill]
  | .unary same right => by
    rw [Expr.fill, ← same.token, right.fill]
  | .call callee same given => by
    rw [Expr.fill, ← same.token, callee.fill, given.fillAll]
  | .grouping inner => by
    rw [Expr.fill, inner.fill]

theorem Expr.AllAlike.fillAll {es es' : List Expr} :
    Expr.AllAlike (HoldsPlaceOf tokens) es es' → Expr.fillAll tokens es = es'
  | .nil => rfl
  | .cons first rest => by
    rw [Expr.fillAll, first.fill, rest.fillAll]

end

mutual

theorem Stmt.Alike.fill {s s' : Stmt} :
    Stmt.Alike (HoldsPlaceOf tokens) s s' → s.fill tokens = s'
  | .expression value => congrArg Stmt.expression value.fill
  | .print value => congrArg Stmt.print value.fill
  | .declare same initializer => by
    cases initializer with
    | none => rw [Stmt.fill, ← same.token]
    | some value => rw [Stmt.fill, ← same.token, value.fill]
  | .block inner => congrArg Stmt.block inner.fillAll
  | .branch condition consequent => by
    rw [Stmt.fill, condition.fill, consequent.fill]
  | .branchElse condition consequent alternative => by
    rw [Stmt.fill, condition.fill, consequent.fill, alternative.fill]
  | .loop condition body => by
    rw [Stmt.fill, condition.fill, body.fill]

/-- Trees that are alike up to placeholders: one is the other filled in. -/
theorem Stmt.AllAlike.fillAll {ss ss' : List Stmt} :
    Stmt.AllAlike (HoldsPlaceOf tokens) ss ss' → Stmt.fillAll tokens ss = ss'
  | .nil => rfl
  | .cons first rest => by
    rw [Stmt.fillAll, first.fill, rest.fillAll]

end

namespace Parse

theorem faults_fill {told told' : List SyntaxFault}
    (alike : List.Forall₂ (FaultAlike (HoldsPlaceOf tokens)) told told') :
    told.map (SyntaxFault.fill tokens) = told' := by
  induction alike with
  | nil => rfl
  | @cons f f' _ _ here _ ih =>
    obtain ⟨same, fault⟩ := here
    have filled : f.fill tokens = f' := by
      rw [SyntaxFault.fill, ← same.token, fault]
    rw [List.map_cons, filled, ih]

section

variable {R : Token → Token → Prop} {ts us : List Token}

theorem body_related (keeps : KeepsKind R) (related : List.Forall₂ R ts us) :
    List.Forall₂ R (body ts) (body us) := by
  induction related with
  | nil => exact .nil
  | @cons t t' rest rest' here _ ih =>
    have same := keeps _ _ here
    by_cases final : t.kind = .eof
    · simp [body, final, ← same]
    · simpa [body, final, ← same] using ⟨here, ih⟩

/-- Lists with an end of the input have related ones, the first of either list. -/
theorem endToken_related (keeps : KeepsKind R) (related : List.Forall₂ R ts us)
    (ended : ∃ t ∈ ts, t.kind = .eof) : R (endToken ts) (endToken us) := by
  induction related with
  | nil => simp at ended
  | @cons t t' rest rest' here others ih =>
    have same := keeps _ _ here
    by_cases final : t.kind = .eof
    · simpa [endToken, final, ← same] using here
    · -- neither list ends here, so what follows decides
      have later : ∃ u ∈ rest, u.kind = .eof := by simpa [final] using ended
      have filled : rest ≠ [] := by
        obtain ⟨u, member, -⟩ := later
        exact List.ne_nil_of_mem member
      have filled' : rest' ≠ [] := by
        rintro rfl
        cases others
        exact filled rfl
      have passes : endToken ([t] ++ rest) = endToken rest :=
        endToken_append (by simpa using final) filled
      have passes' : endToken ([t'] ++ rest') = endToken rest' :=
        endToken_append (by simpa [← same] using final) filled'
      rw [List.singleton_append] at passes passes'
      rw [passes, passes']
      exact ih later

end

/-- An end of the input may as well stand in the list itself. -/
theorem recorded_append_endToken (ts : List Token) :
    recorded (ts ++ [endToken ts]) = recorded ts := by
  have final : (endToken ts).kind = .eof := Cursor.endToken_kind ts
  apply recorded_congr
  · unfold body
    rw [List.takeWhile_append]
    split
    · rename_i whole
      rw [List.takeWhile_cons_of_neg (by simp [final]), List.append_nil]
      exact ((List.takeWhile_prefix _).eq_of_length whole).symm
    · rfl
  · cases found : ts.find? (·.kind == .eof) with
    | some finish => simp [endToken, List.find?_append, found]
    | none =>
      have inside : ∀ t ∈ ts, t.kind ≠ .eof := by simpa using found
      exact endToken_append_end inside final

/-- The tokens at all places of a list, the one behind the last included. -/
theorem map_tokenAt (ts : List Token) :
    (List.range (ts.length + 1)).map (tokenAt ts) = ts ++ [endToken ts] := by
  apply List.ext_getElem
  · simp
  · intro place inside inside'
    rw [List.getElem_map, List.getElem_range, tokenAt, List.getD_eq_getElem?_getD]
    by_cases within : place < ts.length
    · simp [within]
    · have behind : place = ts.length := by
        rw [List.length_append, List.length_singleton] at inside'
        omega
      simp [behind]

theorem tokenAt_kind (ts : List Token) (place : Nat) :
    (tokenAt ts place).kind = (kinds ts).getD place .eof := by
  rw [tokenAt, List.getD_eq_getElem?_getD, List.getD_eq_getElem?_getD, List.getElem?_map]
  cases ts[place]? with
  | none => exact Cursor.endToken_kind ts
  | some t => rfl

theorem forall₂_of_places {R : Token → Token → Prop} {p q : Nat → Token} {n : Nat}
    (each : ∀ place, R (p place) (q place)) :
    List.Forall₂ R ((List.range n).map p) ((List.range n).map q) := by
  rw [List.forall₂_map_left_iff, List.forall₂_map_right_iff, List.forall₂_same]
  exact fun place _ => each place

theorem exists_end_append (ts : List Token) : ∃ t ∈ ts ++ [endToken ts], t.kind = .eof :=
  ⟨endToken ts, by simp, Cursor.endToken_kind ts⟩

/-- Lists that are related place by place, up to the end of the input behind them, are parsed
alike. -/
theorem recorded_alike_of_closed {R : Token → Token → Prop} {ts us : List Token}
    (keeps : KeepsKind R) (related : List.Forall₂ R ts us) (ended : ∃ t ∈ ts, t.kind = .eof) :
    Stmt.AllAlike R (recorded ts).value (recorded us).value ∧
      List.Forall₂ (FaultAlike R) (recorded ts).records (recorded us).records :=
  recorded_alike keeps (body_related keeps related) (endToken_related keeps related ended)

theorem placeholders_end (ks : List Kind) : ∃ p ∈ placeholders ks, p.kind = .eof := by
  refine ⟨_, List.mem_map_of_mem (List.mem_range.mpr (Nat.lt_succ_self ks.length)), ?_⟩
  simp

/-- Every list of tokens is parsed to the draft of its kinds, filled in. -/
theorem recorded_eq_fillIn (ts : List Token) :
    recorded ts = fillIn (tokenAt ts) (draft (kinds ts)) := by
  have keeps : KeepsKind (HoldsPlaceOf (tokenAt ts)) := fun _ _ held => held.kind
  have related : List.Forall₂ (HoldsPlaceOf (tokenAt ts)) (placeholders (kinds ts))
      (ts ++ [endToken ts]) := by
    rw [← map_tokenAt, placeholders, List.length_map]
    apply forall₂_of_places
    intro place
    exact ⟨(tokenAt_kind ts place).symm, rfl, rfl⟩
  obtain ⟨trees, faults⟩ := recorded_alike_of_closed keeps related (placeholders_end (kinds ts))
  rw [recorded_append_endToken] at trees faults
  unfold fillIn draft
  rw [trees.fillAll, faults_fill faults]

/-- Two tokens stand at one place of two lists. -/
def AtOnePlace (ts us : List Token) (t u : Token) : Prop :=
  ∃ place, t = tokenAt ts place ∧ u = tokenAt us place

theorem recorded_alike_of_kinds {ts us : List Token} (same : kinds ts = kinds us) :
    Stmt.AllAlike (AtOnePlace ts us) (recorded ts).value (recorded us).value ∧
      List.Forall₂ (FaultAlike (AtOnePlace ts us)) (recorded ts).records (recorded us).records := by
  have keeps : KeepsKind (AtOnePlace ts us) := by
    rintro t u ⟨place, rfl, rfl⟩
    rw [tokenAt_kind, tokenAt_kind, same]
  have long : ts.length = us.length := by simpa using congrArg List.length same
  have related : List.Forall₂ (AtOnePlace ts us) (ts ++ [endToken ts]) (us ++ [endToken us]) := by
    rw [← map_tokenAt, ← map_tokenAt, long]
    exact forall₂_of_places fun place => ⟨place, rfl, rfl⟩
  have alike := recorded_alike_of_closed keeps related (exists_end_append ts)
  rwa [recorded_append_endToken, recorded_append_endToken] at alike

section

variable {g : Token → Token} {ts : List Token}

theorem keepsKind_image (kept : ∀ t, (g t).kind = t.kind) :
    KeepsKind fun t t' => t ∈ ts ∧ t' = g t := by
  rintro t t' ⟨-, rfl⟩
  exact (kept t).symm

theorem related_map : List.Forall₂ (fun t t' => t ∈ ts ∧ t' = g t) ts (ts.map g) := by
  rw [List.forall₂_map_right_iff, List.forall₂_same]
  exact fun t member => ⟨member, rfl⟩

theorem tokenAt_map (kept : ∀ t, (g t).kind = t.kind) (ended : ∃ t ∈ ts, t.kind = .eof)
    (place : Nat) : tokenAt (ts.map g) place = g (tokenAt ts place) := by
  have finish := (endToken_related (keepsKind_image kept) related_map ended).2
  rw [tokenAt, tokenAt, finish, List.getD_eq_getElem?_getD, List.getD_eq_getElem?_getD,
    List.getElem?_map, Option.getD_map]

end

/-- The kinds of the tokens alone decide what is parsed.  Lists of the same kinds are parsed to one
draft, filled with the tokens of the one or of the other: so to trees of one shape with tokens of
one place at corresponding positions, and with the same faults at the same places.  And when the
tokens of a list with an end of the input are changed but for their kinds, the draft is filled with
the changed tokens: each token of the trees is replaced, each number and text by that of the changed
token, and the blamed tokens too. -/
theorem shape_depends_on_kinds (ts us : List Token) (same : kinds ts = kinds us) :
    recorded ts = fillIn (tokenAt ts) (draft (kinds ts)) ∧
    recorded us = fillIn (tokenAt us) (draft (kinds ts)) ∧
    Stmt.AllAlike (AtOnePlace ts us) (recorded ts).value (recorded us).value ∧
    List.Forall₂ (FaultAlike (AtOnePlace ts us)) (recorded ts).records (recorded us).records ∧
    ∀ g : Token → Token, (∀ t, (g t).kind = t.kind) → (∃ t ∈ ts, t.kind = .eof) →
      recorded (ts.map g) = fillIn (fun place => g (tokenAt ts place)) (draft (kinds ts)) ∧
      Stmt.AllAlike (fun t t' => t ∈ ts ∧ t' = g t) (recorded ts).value
        (recorded (ts.map g)).value ∧
      (recorded (ts.map g)).records = (recorded ts).records.map fun f => ⟨g f.token, f.fault⟩ := by
  obtain ⟨shapes, places⟩ := recorded_alike_of_kinds same
  refine ⟨recorded_eq_fillIn ts, same ▸ recorded_eq_fillIn us, shapes, places, ?_⟩
  intro g kept ended
  have unchanged : kinds (ts.map g) = kinds ts := by
    simp [kinds, Function.comp_def, kept]
  have filled : recorded (ts.map g) =
      fillIn (fun place => g (tokenAt ts place)) (draft (kinds ts)) := by
    rw [recorded_eq_fillIn (ts.map g), unchanged, funext (tokenAt_map kept ended)]
  have trees := (recorded_alike_of_closed (keepsKind_image kept) related_map ended).1
  refine ⟨filled, trees, ?_⟩
  rw [filled, recorded_eq_fillIn ts]
  simp [fillIn, SyntaxFault.fill]

/-- `print x + 1; 2 = "s";`, where the second statement assigns to a number. -/
def misassigned : List Token :=
  [⟨.print, [], .nothing, 1⟩, ⟨.identifier, [120], .nothing, 1⟩, ⟨.plus, [], .nothing, 1⟩,
    ⟨.number, [], .whole 1, 1⟩, ⟨.semicolon, [], .nothing, 1⟩, ⟨.number, [], .whole 2, 1⟩,
    ⟨.equal, [], .nothing, 1⟩, ⟨.string, [], .string [115], 1⟩, ⟨.semicolon, [], .nothing, 1⟩,
    .endOfInput 1]

/-- The token three lines further down, with its lexeme as its text. -/
def moved (t : Token) : Token := { t with literal := .string t.lexeme, line := t.line + 3 }

theorem moved_misassigned_has_one_draft :
    kinds misassigned = kinds (misassigned.map moved) ∧ (∀ t, (moved t).kind = t.kind) ∧
    (∃ t ∈ misassigned, t.kind = .eof) ∧
    recorded (misassigned.map moved) =
      ⟨[.print (.binary (.identifier ⟨.identifier, [120], .string [120], 4⟩)
          ⟨.plus, [], .string [], 4⟩ (.literal (.string []))),
        .expression (.literal (.string []))],
      [⟨⟨.equal, [], .string [], 4⟩, .invalidTarget⟩]⟩ := by
  have same : kinds misassigned = kinds (misassigned.map moved) := by decide
  have ended : ∃ t ∈ misassigned, t.kind = .eof := by decide
  obtain ⟨-, -, -, -, mapped⟩ := shape_depends_on_kinds misassigned (misassigned.map moved) same
  have filled := (mapped moved (fun _ => rfl) ended).1
  exact ⟨same, fun _ => rfl, ended, filled.trans rfl⟩

end Parse

end Bhasha
