import BeeProtocol.Parser
import Mathlib.Data.List.Forall2

/-!
# What a parser reads

A grammar says which byte strings spell an item. A parser reads a grammar if it succeeds exactly on
the bytes that begin with a spelling, gives the item that is spelled there, and leaves what follows
it. Parsers that are put together read the grammars that are put together in the same way.
-/

namespace BeeProtocol.Parser

variable {ε δ α β : Type}

/-! ### One step -/

/-- Reading the item of a parser and applying a function is reading the image of the item. -/
theorem parse_map (f : α → β) (parser : Parser ε α) (bytes : List UInt8) :
    Parser.parse (f <$> parser) bytes = (Parser.parse parser bytes).map f := by
  simp only [Parser.parse, Functor.map, StateT.map, bind, Except.bind, pure, Except.pure]
  cases parser bytes with
  | error reason => rfl
  | ok result => rfl

/-- Reading one item and then another fails with the first reason. -/
theorem bind_apply (parser : Parser ε α) (next : α → Parser ε β) (bytes : List UInt8) :
    (parser >>= next) bytes =
      match parser bytes with
      | .ok (item, rest) => next item rest
      | .error reason => .error reason := by
  simp only [bind, StateT.bind, Except.bind]
  cases parser bytes <;> rfl

/-- Reading one item and then another fails at the first or, if that is read, at the second. -/
theorem bind_eq_error_iff {parser : Parser ε α} {next : α → Parser ε β} {bytes : List UInt8}
    {reason : ε} :
    (parser >>= next) bytes = .error reason ↔
      parser bytes = .error reason ∨
        ∃ item rest, parser bytes = .ok (item, rest) ∧ next item rest = .error reason := by
  rw [bind_apply]
  cases parser bytes with
  | error first => simp
  | ok result =>
    obtain ⟨item, rest⟩ := result
    simp

/-- A parser that reads nothing leaves all bytes. -/
theorem pure_apply (item : α) (bytes : List UInt8) :
    (pure item : Parser ε α) bytes = .ok (item, bytes) := rfl

/-- What is parsed is read from the front. -/
theorem parse_eq_ok_iff {parser : Parser ε α} {bytes : List UInt8} {item : α} :
    parser.parse bytes = .ok item ↔ ∃ rest, parser bytes = .ok (item, rest) := by
  unfold parse
  cases hread : parser bytes with
  | error reason => simp
  | ok result =>
    obtain ⟨found, rest⟩ := result
    simp

/-! ### Grammars -/

/-- The parser reads exactly the spellings of its items and leaves what follows them. -/
def Reads (parser : Parser ε α) (Spells : α → List UInt8 → Prop) : Prop :=
  ∀ (bytes : List UInt8) (item : α) (rest : List UInt8), parser bytes = .ok (item, rest) ↔
    ∃ spelled, Spells item spelled ∧ bytes = spelled ++ rest

namespace Reads

variable {parser : Parser ε α} {Spells Spells' : α → List UInt8 → Prop}

/-- Grammars with the same spellings are read alike. -/
theorem congr (h : parser.Reads Spells)
    (hsame : ∀ item spelled, Spells item spelled ↔ Spells' item spelled) :
    parser.Reads Spells' := by
  intro bytes item rest
  rw [h bytes item rest]
  simp only [hsame]

/-- Nothing spells an item that is there without reading. -/
theorem pure (item : α) :
    (pure item : Parser ε α).Reads fun found spelled => found = item ∧ spelled = [] := by
  intro bytes found rest
  rw [pure_apply]
  constructor
  · intro hread
    obtain ⟨rfl, rfl⟩ := Prod.mk.inj (Except.ok.inj hread)
    exact ⟨[], ⟨rfl, rfl⟩, rfl⟩
  · rintro ⟨spelled, ⟨rfl, rfl⟩, rfl⟩
    rfl

/-- A parser that fails has no spellings. -/
theorem fail (reason : ε) : (Parser.fail reason : Parser ε α).Reads fun _ _ => False := by
  intro bytes item rest
  simp [Parser.fail]

/-- What is read one after another is spelled one behind the other. -/
theorem bind (h : parser.Reads Spells) {next : α → Parser ε β}
    (Follows : α → β → List UInt8 → Prop) (hnext : ∀ item, (next item).Reads (Follows item)) :
    (parser >>= next).Reads fun found spelled => ∃ item front back,
      Spells item front ∧ Follows item found back ∧ spelled = front ++ back := by
  intro bytes found rest
  rw [bind_apply]
  constructor
  · intro hread
    cases hfirst : parser bytes with
    | error reason => rw [hfirst] at hread; cases hread
    | ok result =>
      obtain ⟨item, middle⟩ := result
      rw [hfirst] at hread
      obtain ⟨front, hfront, rfl⟩ := (h bytes item middle).mp hfirst
      obtain ⟨back, hback, rfl⟩ := (hnext item middle found rest).mp hread
      exact ⟨front ++ back, ⟨item, front, back, hfront, hback, rfl⟩, by simp⟩
  · rintro ⟨spelled, ⟨item, front, back, hfront, hback, rfl⟩, rfl⟩
    rw [List.append_assoc, (h _ item (back ++ rest)).mpr ⟨front, hfront, rfl⟩]
    exact (hnext item _ found rest).mpr ⟨back, hback, rfl⟩

/-- What an item is taken for, without reading on, is spelled as the item is. -/
theorem bind_check (h : parser.Reads Spells) {next : α → Parser ε β} (Gives : α → β → Prop)
    (hnext : ∀ item, (next item).Reads fun found spelled => Gives item found ∧ spelled = []) :
    (parser >>= next).Reads fun found spelled =>
      ∃ item, Spells item spelled ∧ Gives item found := by
  refine (h.bind _ hnext).congr fun found spelled => ?_
  constructor
  · rintro ⟨item, front, back, hfront, ⟨hgives, rfl⟩, rfl⟩
    exact ⟨item, by simpa using hfront, hgives⟩
  · rintro ⟨item, hitem, hgives⟩
    exact ⟨item, spelled, [], hitem, ⟨hgives, rfl⟩, by simp⟩

/-- The image of an item is spelled as the item is. -/
theorem bind_pure (f : α → β) (h : parser.Reads Spells) :
    (parser >>= fun item => Pure.pure (f item)).Reads fun found spelled =>
      ∃ item, Spells item spelled ∧ found = f item := by
  exact h.bind_check (fun item found => found = f item) fun item => Reads.pure (f item)

/-- A parser with its result changed reads the same spellings. -/
theorem map (f : α → β) (h : parser.Reads Spells) :
    (f <$> parser).Reads fun found spelled => ∃ item, Spells item spelled ∧ found = f item := by
  rw [map_eq_pure_bind]
  exact h.bind_pure f

/-- The reasons for failure do not matter. -/
theorem mapError (f : ε → δ) (h : parser.Reads Spells) : (parser.mapError f).Reads Spells := by
  intro bytes item rest
  rw [← h bytes item rest, Parser.mapError]
  cases parser bytes <;> simp

/-- Several items are spelled one behind the other. -/
theorem replicate (h : parser.Reads Spells) (count : Nat) :
    (parser.replicate count).Reads fun items spelled => items.length = count ∧
      ∃ parts, List.Forall₂ Spells items parts ∧ spelled = parts.flatten := by
  induction count with
  | zero =>
    refine (Reads.pure []).congr fun items spelled => ?_
    constructor
    · rintro ⟨rfl, rfl⟩
      exact ⟨rfl, [], .nil, rfl⟩
    · rintro ⟨hlength, parts, hparts, rfl⟩
      obtain rfl := List.eq_nil_of_length_eq_zero hlength
      cases hparts
      exact ⟨rfl, rfl⟩
  | succ count ih =>
    refine (h.bind _ fun item => ih.bind _ fun items => Reads.pure (item :: items)).congr
      fun items spelled => ?_
    constructor
    · rintro ⟨item, front, _, hfront, ⟨rest, _, _, ⟨hlength, parts, hparts, rfl⟩, ⟨rfl, rfl⟩, rfl⟩,
        rfl⟩
      exact ⟨by simp [hlength], front :: parts, .cons hfront hparts, by simp⟩
    · rintro ⟨hlength, parts, hparts, rfl⟩
      cases hparts with
      | nil => simp at hlength
      | cons hitem hparts =>
        rename_i item front items parts
        exact ⟨item, front, parts.flatten, hitem,
          ⟨items, parts.flatten, [], ⟨by simpa using hlength, parts, hparts, rfl⟩, ⟨rfl, rfl⟩,
            by simp⟩, by simp⟩

end Reads

/-- What is read is read with more bytes behind it as well. -/
theorem Reads.append {parser : Parser ε α} {Spells : α → List UInt8 → Prop}
    (h : parser.Reads Spells) {bytes rest : List UInt8} {item : α}
    (hread : parser bytes = .ok (item, rest)) (more : List UInt8) :
    parser (bytes ++ more) = .ok (item, rest ++ more) := by
  obtain ⟨spelled, hspelled, rfl⟩ := (h bytes item rest).mp hread
  exact (h _ item _).mpr ⟨spelled, hspelled, List.append_assoc ..⟩

/-! ### Bytes that end too early -/

/-- A parser that takes no bytes for anything else because they end too early: what it reads and
every reason for failure but the one for a shortage stand whatever bytes follow. -/
structure Firm (shortage : ε) (parser : Parser ε α) : Prop where
  /-- What is read does not depend on what follows. -/
  ok : ∀ bytes item rest more, parser bytes = .ok (item, rest) →
    parser (bytes ++ more) = .ok (item, rest ++ more)
  /-- Neither does a failure, but for a shortage. -/
  error : ∀ bytes reason more, parser bytes = .error reason → reason ≠ shortage →
    parser (bytes ++ more) = .error reason

namespace Firm

variable {shortage : ε} {parser : Parser ε α}

/-- A parser that reads nothing is firm. -/
theorem pure (item : α) : (Pure.pure item : Parser ε α).Firm shortage where
  ok bytes found rest more h := by
    obtain ⟨rfl, rfl⟩ := Prod.mk.inj (Except.ok.inj h)
    rfl
  error bytes reason more h := by cases h

/-- A parser that always fails is firm. -/
theorem fail (reason : ε) : (Parser.fail reason : Parser ε α).Firm shortage where
  ok bytes found rest more h := by cases h
  error bytes found more h _ := h

/-- Firm parsers one after another are firm. -/
theorem bind (h : parser.Firm shortage) {next : α → Parser ε β}
    (hnext : ∀ item, (next item).Firm shortage) : (parser >>= next).Firm shortage where
  ok bytes found rest more hread := by
    rw [bind_apply] at hread ⊢
    cases hfirst : parser bytes with
    | error reason => rw [hfirst] at hread; cases hread
    | ok result =>
      obtain ⟨item, middle⟩ := result
      rw [hfirst] at hread
      rw [h.ok bytes item middle more hfirst]
      exact (hnext item).ok middle found rest more hread
  error bytes reason more hread hreason := by
    rw [bind_apply]
    rcases bind_eq_error_iff.mp hread with hfirst | ⟨item, middle, hfirst, hsecond⟩
    · rw [h.error bytes reason more hfirst hreason]
    · rw [h.ok bytes item middle more hfirst]
      exact (hnext item).error middle reason more hsecond hreason

/-- A firm parser stays so if its result is changed. -/
theorem map (f : α → β) (h : parser.Firm shortage) : (f <$> parser).Firm shortage := by
  rw [map_eq_pure_bind]
  exact h.bind fun item => pure (f item)

/-- A firm parser stays so if its errors are changed. -/
theorem mapError (f : ε → δ) (h : parser.Firm shortage) :
    (parser.mapError f).Firm (f shortage) where
  ok bytes item rest more hread := by
    unfold Parser.mapError at hread ⊢
    cases hplain : parser bytes with
    | error reason => rw [hplain] at hread; cases hread
    | ok result =>
      obtain ⟨found, after⟩ := result
      rw [hplain] at hread
      cases hread
      rw [h.ok bytes item rest more hplain]
  error bytes reason more hread hreason := by
    unfold Parser.mapError at hread ⊢
    cases hplain : parser bytes with
    | ok result => rw [hplain] at hread; cases hread
    | error first =>
      rw [hplain] at hread
      cases hread
      rw [h.error bytes first more hplain fun hshort => hreason (congrArg f hshort)]

/-- A firm parser stays so if it is repeated. -/
theorem replicate (h : parser.Firm shortage) (count : Nat) :
    (parser.replicate count).Firm shortage := by
  induction count with
  | zero => exact pure []
  | succ count ih => exact h.bind fun item => ih.bind fun items => pure (item :: items)

/-- Bytes of which some are missing for an item fail with the shortage. -/
theorem eq_shortage (h : parser.Firm shortage) {bytes missing : List UInt8} {item : α}
    (hmissing : missing ≠ []) (hwhole : parser (bytes ++ missing) = .ok (item, [])) :
    parser bytes = .error shortage := by
  cases hread : parser bytes with
  | ok result =>
    obtain ⟨found, rest⟩ := result
    rw [h.ok bytes found rest missing hread, Except.ok.injEq, Prod.mk.injEq,
      List.append_eq_nil_iff] at hwhole
    exact absurd hwhole.2.2 hmissing
  | error reason =>
    by_cases hreason : reason = shortage
    · rw [hreason]
    · rw [h.error bytes reason missing hread hreason] at hwhole
      cases hwhole

end Firm

end BeeProtocol.Parser
