import Phrasebook.Json.Read
import Mathlib.Data.List.TakeWhile

/-!
The tokens of documents: white space, words, numbers and strings. What a token may look like is
said without the reader, and the reader takes exactly such tokens. A number has no end of its own,
so it is read up to a byte that ends it.
-/
namespace Phrasebook.LocatedJson

/-! ### Places in a text -/

/-- The bytes `bs` stand between two places. -/
structure Place.Passes (p : Place) (bs : Bytes) (q : Place) : Prop where
  rest : p.rest = bs ++ q.rest
  offset : q.offset = p.offset + bs.length

namespace Place.Passes

variable {p q r : Place} {bs cs : Bytes}

theorem refl (p : Place) : p.Passes [] p :=
  ⟨rfl, rfl⟩

theorem trans (h : p.Passes bs q) (h' : q.Passes cs r) : p.Passes (bs ++ cs) r where
  rest := by rw [h.rest, h'.rest, List.append_assoc]
  offset := by rw [h'.offset, h.offset, List.length_append, Nat.add_assoc]

theorem eq_skip (h : p.Passes bs q) : q = p.skip bs.length := by
  obtain ⟨offset, rest⟩ := q
  obtain ⟨hrest, hoffset⟩ := h
  dsimp only at hrest hoffset
  rw [Place.skip, hrest, List.drop_left, hoffset]

theorem unique (h : p.Passes bs q) (h' : p.Passes bs r) : q = r :=
  h.eq_skip.trans h'.eq_skip.symm

/-- A run of two parts passes the place between them. -/
theorem split (h : p.Passes (bs ++ cs) q) :
    p.Passes bs (p.skip bs.length) ∧ (p.skip bs.length).Passes cs q := by
  have hrest : p.rest = bs ++ (cs ++ q.rest) := by rw [h.rest, List.append_assoc]
  refine ⟨⟨?_, rfl⟩, ⟨?_, ?_⟩⟩
  · rw [Place.skip, hrest, List.drop_left]
  · rw [Place.skip, hrest, List.drop_left]
  · rw [h.offset, Place.skip, List.length_append, Nat.add_assoc]

end Place.Passes

theorem Place.passes_skip {p : Place} {bs r : Bytes} (h : p.rest = bs ++ r) :
    p.Passes bs (p.skip bs.length) := by
  refine ⟨?_, rfl⟩
  rw [Place.skip, h, List.drop_left]

/-- The byte ahead. -/
theorem Place.Passes.head {p q : Place} {b : UInt8} {bs : Bytes} (h : p.Passes (b :: bs) q) :
    p.rest.head? = some b := by
  rw [h.rest, List.cons_append, List.head?_cons]

theorem Place.passes_head {p : Place} {b : UInt8} (h : p.rest.head? = some b) :
    p.Passes [b] (p.skip 1) := by
  obtain ⟨r, hr⟩ : ∃ r, p.rest = [b] ++ r := List.head?_eq_some_iff.mp h
  exact Place.passes_skip hr

section Runs

variable {p q : Place} {keep : UInt8 → Bool} {run : Bytes}

theorem Place.passes_skipWhile (p : Place) (keep : UInt8 → Bool) :
    p.Passes (p.rest.takeWhile keep) (p.skipWhile keep) :=
  Place.passes_skip (List.takeWhile_append_dropWhile).symm

/-- A run is skipped up to its end. -/
theorem Place.Passes.skipWhile_eq (h : p.Passes run q) (hrun : ∀ b ∈ run, keep b = true)
    (hend : ∀ b ∈ q.rest.head?, keep b = false) : p.skipWhile keep = q := by
  have htake : p.rest.takeWhile keep = run := by
    have hstop : q.rest.takeWhile keep = [] := by
      rcases hq : q.rest with _ | ⟨b, r⟩
      · rfl
      · have hb : keep b = false := hend b (by rw [hq]; rfl)
        rw [List.takeWhile_cons_of_neg (by rw [hb]; exact Bool.false_ne_true)]
    rw [h.rest, List.takeWhile_append_of_pos hrun, hstop, List.append_nil]
  have hpasses := p.passes_skipWhile keep
  rw [htake] at hpasses
  exact hpasses.unique h

end Runs

/-! ### White space -/

/-- A run of white space. -/
def Blank (bs : Bytes) : Prop :=
  ∀ b ∈ bs, isSpace b = true

theorem passes_skipSpace (p : Place) : ∃ ws, Blank ws ∧ p.Passes ws p.skipSpace :=
  ⟨_, fun _ hb => List.mem_takeWhile_imp hb, p.passes_skipWhile isSpace⟩

theorem skipSpace_eq {p q : Place} {ws : Bytes} (hws : Blank ws) (h : p.Passes ws q)
    (hend : ∀ b ∈ q.rest.head?, isSpace b = false) : p.skipSpace = q :=
  h.skipWhile_eq hws hend

theorem token?_sound {p q : Place} {b : UInt8} (h : token? b p = some q) :
    ∃ ws, Blank ws ∧ p.Passes (ws ++ [b]) q := by
  obtain ⟨ws, hws, hpasses⟩ := passes_skipSpace p
  rw [token?] at h
  split at h
  · next hhead =>
    cases h
    exact ⟨ws, hws, hpasses.trans (Place.passes_head hhead)⟩
  · cases h

theorem token?_of_passes {p q : Place} {b : UInt8} {ws : Bytes} (hb : isSpace b = false)
    (hws : Blank ws) (h : p.Passes (ws ++ [b]) q) : token? b p = some q := by
  obtain ⟨hbefore, hafter⟩ := h.split
  have hspace : p.skipSpace = p.skip ws.length := by
    apply skipSpace_eq hws hbefore
    intro c hc
    rw [hafter.head] at hc
    cases hc
    exact hb
  rw [token?, hspace, if_pos hafter.head, hafter.eq_skip]
  rfl

/-- Another byte stands where the token should. -/
theorem token?_eq_none {p q : Place} {b c : UInt8} {ws r : Bytes} (hc : isSpace c = false)
    (hne : c ≠ b) (hws : Blank ws) (h : p.Passes (ws ++ c :: r) q) : token? b p = none := by
  obtain ⟨hbefore, hafter⟩ := h.split
  have hspace : p.skipSpace = p.skip ws.length := by
    apply skipSpace_eq hws hbefore
    intro d hd
    rw [hafter.head] at hd
    cases hd
    exact hc
  rw [token?, hspace, if_neg]
  rw [hafter.head]
  exact fun heq => hne (Option.some.inj heq)

/-! ### Words -/

theorem word?_eq_some_iff {w : String} {p q : Place} :
    word? w p = some q ↔ p.Passes (Bytes.ofText w) q := by
  rw [word?]
  constructor
  · intro h
    split at h
    · next hprefix =>
      cases h
      obtain ⟨r, hr⟩ := List.isPrefixOf_iff_prefix.mp hprefix
      exact Place.passes_skip hr.symm
    · cases h
  · intro h
    rw [if_pos, h.eq_skip]
    exact List.isPrefixOf_iff_prefix.mpr ⟨q.rest, h.rest.symm⟩

/-! ### Numbers -/

/-- Digits, at least one. -/
def Digits (ds : Bytes) : Prop :=
  ds ≠ [] ∧ ∀ b ∈ ds, isDigit b = true

/-- The digits in front of the point. Only the number zero starts with a zero. -/
def Whole (ds : Bytes) : Prop :=
  ds = [0x30] ∨ Digits ds ∧ ds.head? ≠ some 0x30

def Fraction (bs : Bytes) : Prop :=
  bs = [] ∨ ∃ ds, Digits ds ∧ bs = 0x2E :: ds

def Exponent (bs : Bytes) : Prop :=
  bs = [] ∨ ∃ e sign ds, (e = 0x65 ∨ e = 0x45) ∧ sign ∈ [[], [0x2B], [0x2D]] ∧ Digits ds ∧
    bs = e :: (sign ++ ds)

/-- The text of a number. -/
def NumberText (text : Bytes) : Prop :=
  ∃ sign whole fraction exponent, sign ∈ [[], [(0x2D : UInt8)]] ∧ Whole whole ∧
    Fraction fraction ∧ Exponent exponent ∧ text = sign ++ (whole ++ (fraction ++ exponent))

/-- What may follow a value inside a document. -/
def Ended (rest : Bytes) : Prop :=
  ∀ b ∈ rest.head?, isSpace b = true ∨ b = 0x2C ∨ b = 0x5D ∨ b = 0x7D

theorem Digits.head {ds : Bytes} (h : Digits ds) : ∃ b r, ds = b :: r ∧ isDigit b = true := by
  obtain ⟨hne, hall⟩ := h
  obtain ⟨b, r, rfl⟩ := List.exists_cons_of_ne_nil hne
  exact ⟨b, r, rfl, hall b List.mem_cons_self⟩

theorem digits?_sound {p q : Place} (h : digits? p = some q) :
    ∃ ds, Digits ds ∧ p.Passes ds q := by
  rw [digits?] at h
  split at h
  · next b r hrest =>
    split at h
    · next hb =>
      cases h
      refine ⟨_, ⟨?_, fun c hc => List.mem_takeWhile_imp hc⟩, p.passes_skipWhile isDigit⟩
      rw [hrest, List.takeWhile_cons_of_pos hb]
      exact List.cons_ne_nil _ _
    · cases h
  · cases h

theorem digits?_of_passes {p q : Place} {ds : Bytes} (hds : Digits ds) (h : p.Passes ds q)
    (hend : ∀ b ∈ q.rest.head?, isDigit b = false) : digits? p = some q := by
  obtain ⟨b, r, hcons, hb⟩ := hds.head
  have hrest : p.rest = b :: (r ++ q.rest) := by rw [h.rest, hcons, List.cons_append]
  rw [digits?, hrest]
  dsimp only
  rw [if_pos hb, h.skipWhile_eq hds.2 hend]

/-! The reader of numbers, part by part. -/

def pastSign (p : Place) : Place :=
  if p.rest.head? = some 0x2D then p.skip 1 else p

def whole? (p : Place) : Option Place :=
  if p.rest.head? = some 0x30 then some (p.skip 1) else digits? p

def fraction? (p : Place) : Option Place :=
  if p.rest.head? = some 0x2E then digits? (p.skip 1) else some p

def exponent? (p : Place) : Option Place :=
  match p.rest with
  | e :: sign :: _ =>
    if e = 0x65 || e = 0x45 then
      digits? (p.skip (if sign = 0x2B || sign = 0x2D then 2 else 1))
    else some p
  | [e] => if e = 0x65 || e = 0x45 then none else some p
  | [] => some p

theorem number?_eq (p : Place) :
    number? p = (whole? (pastSign p)).bind fun p => (fraction? p).bind exponent? := by
  have hfraction : ∀ p : Place,
      (if p.rest.head? = some 0x2E then (digits? (p.skip 1)).bind exponent?
        else (some p).bind exponent?) = (fraction? p).bind exponent? := by
    intro p
    rw [fraction?]
    split <;> rfl
  simp only [← hfraction]
  rw [whole?]
  by_cases hzero : (pastSign p).rest.head? = some 0x30
  · rw [if_pos hzero]
    exact if_pos hzero
  · rw [if_neg hzero]
    exact if_neg hzero

theorem pastSign_sound (p : Place) :
    ∃ sign, sign ∈ [[], [(0x2D : UInt8)]] ∧ p.Passes sign (pastSign p) := by
  rw [pastSign]
  split
  · next hminus => exact ⟨[0x2D], by decide, Place.passes_head hminus⟩
  · exact ⟨[], by decide, .refl p⟩

theorem whole?_sound {p q : Place} (h : whole? p = some q) :
    ∃ ds, Whole ds ∧ p.Passes ds q := by
  rw [whole?] at h
  split at h
  · next hzero =>
    cases h
    exact ⟨[0x30], .inl rfl, Place.passes_head hzero⟩
  · next hzero =>
    obtain ⟨ds, hds, hpasses⟩ := digits?_sound h
    refine ⟨ds, .inr ⟨hds, fun hhead => hzero ?_⟩, hpasses⟩
    obtain ⟨b, r, rfl, -⟩ := hds.head
    rw [hpasses.head, ← hhead, List.head?_cons]

theorem fraction?_sound {p q : Place} (h : fraction? p = some q) :
    ∃ bs, Fraction bs ∧ p.Passes bs q := by
  rw [fraction?] at h
  split at h
  · next hpoint =>
    obtain ⟨ds, hds, hpasses⟩ := digits?_sound h
    exact ⟨0x2E :: ds, .inr ⟨ds, hds, rfl⟩, (Place.passes_head hpoint).trans hpasses⟩
  · cases h
    exact ⟨[], .inl rfl, .refl p⟩

theorem exponent?_sound {p q : Place} (h : exponent? p = some q) :
    ∃ bs, Exponent bs ∧ p.Passes bs q := by
  have hnone : ∃ bs, Exponent bs ∧ p.Passes bs p := ⟨[], .inl rfl, .refl p⟩
  -- digits behind the letter and a sign
  have hsome : ∀ (e : UInt8) (sign r : Bytes), p.rest = e :: (sign ++ r) → e = 0x65 ∨ e = 0x45 →
      sign ∈ [[], [0x2B], [0x2D]] → digits? (p.skip (e :: sign).length) = some q →
      ∃ bs, Exponent bs ∧ p.Passes bs q := by
    intro e sign r hrest he hsign hdigits
    obtain ⟨ds, hds, hpasses⟩ := digits?_sound hdigits
    have hbefore : p.Passes (e :: sign) (p.skip (e :: sign).length) := Place.passes_skip hrest
    exact ⟨_, .inr ⟨e, sign, ds, he, hsign, hds, rfl⟩, hbefore.trans hpasses⟩
  rw [exponent?] at h
  split at h
  · next e s r hrest =>
    split at h
    · next he =>
      have he : e = 0x65 ∨ e = 0x45 := by simpa using he
      split at h
      · next hs =>
        have hs : s = 0x2B ∨ s = 0x2D := by simpa using hs
        exact hsome e [s] r hrest he (by rcases hs with rfl | rfl <;> decide) h
      · exact hsome e [] (s :: r) hrest he (by decide) h
    · cases h
      exact hnone
  · split at h <;> cases h
    exact hnone
  · cases h
    exact hnone

theorem number?_sound {p q : Place} (h : number? p = some q) :
    ∃ text, NumberText text ∧ p.Passes text q := by
  rw [number?_eq] at h
  obtain ⟨p₂, hwhole, h⟩ := Option.bind_eq_some_iff.mp h
  obtain ⟨p₃, hfraction, hexponent⟩ := Option.bind_eq_some_iff.mp h
  obtain ⟨sign, hsign, hp₁⟩ := pastSign_sound p
  obtain ⟨whole, hwhole, hp₂⟩ := whole?_sound hwhole
  obtain ⟨fraction, hfraction, hp₃⟩ := fraction?_sound hfraction
  obtain ⟨exponent, hexponent, hq⟩ := exponent?_sound hexponent
  exact ⟨_, ⟨sign, whole, fraction, exponent, hsign, hwhole, hfraction, hexponent, rfl⟩,
    hp₁.trans (hp₂.trans (hp₃.trans hq))⟩

/-- What ends a value goes on no number. -/
theorem Ended.clear {rest : Bytes} (h : Ended rest) :
    ∀ b ∈ rest.head?, isDigit b = false ∧ b ≠ 0x2E ∧ b ≠ 0x65 ∧ b ≠ 0x45 := by
  intro b hb
  have hb : (b = 0x20 ∨ b = 0x09 ∨ b = 0x0A ∨ b = 0x0D) ∨ b = 0x2C ∨ b = 0x5D ∨ b = 0x7D := by
    simpa [isSpace, or_assoc] using h b hb
  rcases hb with (rfl | rfl | rfl | rfl) | rfl | rfl | rfl <;> decide

theorem head?_append_imp {P : UInt8 → Prop} {bs r : Bytes} (hbs : ∀ b ∈ bs.head?, P b)
    (hr : ∀ b ∈ r.head?, P b) : ∀ b ∈ (bs ++ r).head?, P b := by
  cases bs with
  | nil => exact hr
  | cons c cs => exact hbs

theorem Whole.head {ds : Bytes} (h : Whole ds) : ∃ b r, ds = b :: r ∧ isDigit b = true := by
  rcases h with rfl | ⟨hds, -⟩
  · exact ⟨0x30, [], rfl, by decide⟩
  · exact hds.head

theorem Fraction.head {bs : Bytes} (h : Fraction bs) : ∀ b ∈ bs.head?, b = 0x2E := by
  rcases h with rfl | ⟨ds, -, rfl⟩
  · exact fun b hb => nomatch hb
  · exact fun b hb => (Option.some.inj hb).symm

theorem Exponent.head {bs : Bytes} (h : Exponent bs) : ∀ b ∈ bs.head?, b = 0x65 ∨ b = 0x45 := by
  rcases h with rfl | ⟨e, sign, ds, he, -, -, rfl⟩
  · exact fun b hb => nomatch hb
  · exact fun b hb => (Option.some.inj hb) ▸ he

section Complete

variable {p q : Place} {bs : Bytes}

theorem pastSign_of_passes (hbs : bs ∈ [[], [(0x2D : UInt8)]]) (h : p.Passes bs q)
    (hend : q.rest.head? ≠ some 0x2D) : pastSign p = q := by
  rw [pastSign]
  rcases (by simpa using hbs : bs = [] ∨ bs = [0x2D]) with rfl | rfl
  · have hq : q = p := h.unique (.refl p)
    rw [← hq, if_neg hend]
  · rw [if_pos h.head, h.eq_skip]
    rfl

theorem whole?_of_passes (hbs : Whole bs) (h : p.Passes bs q)
    (hend : ∀ b ∈ q.rest.head?, isDigit b = false) : whole? p = some q := by
  rw [whole?]
  rcases hbs with rfl | ⟨hds, hzero⟩
  · rw [if_pos h.head, h.eq_skip]
    rfl
  · obtain ⟨b, r, rfl, -⟩ := hds.head
    rw [if_neg (by rw [h.head]; exact hzero), digits?_of_passes hds h hend]

theorem fraction?_of_passes (hbs : Fraction bs) (h : p.Passes bs q)
    (hend : ∀ b ∈ q.rest.head?, isDigit b = false ∧ b ≠ 0x2E) : fraction? p = some q := by
  rw [fraction?]
  rcases hbs with rfl | ⟨ds, hds, rfl⟩
  · have hq : q = p := h.unique (.refl p)
    have hpoint : ¬ q.rest.head? = some 0x2E := fun hpoint => (hend _ hpoint).2 rfl
    rw [← hq, if_neg hpoint]
  · have hpoint : p.Passes ([0x2E] ++ ds) q := h
    rw [if_pos h.head]
    exact digits?_of_passes hds hpoint.split.2 fun b hb => (hend b hb).1

theorem exponent?_of_passes (hbs : Exponent bs) (h : p.Passes bs q)
    (hend : ∀ b ∈ q.rest.head?, isDigit b = false ∧ b ≠ 0x65 ∧ b ≠ 0x45) :
    exponent? p = some q := by
  rcases hbs with rfl | ⟨e, sign, ds, he, hsign, hds, rfl⟩
  · have hq : q = p := h.unique (.refl p)
    subst hq
    rw [exponent?]
    have hletter : ∀ b ∈ q.rest.head?, ¬ (decide (b = 0x65) || decide (b = 0x45)) = true := by
      intro b hb
      simpa using (hend b hb).2
    split
    · next hrest => exact if_neg (hletter _ (by rw [hrest]; rfl))
    · next hrest => exact if_neg (hletter _ (by rw [hrest]; rfl))
    · rfl
  · have he : (decide (e = 0x65) || decide (e = 0x45)) = true := by simpa using he
    -- the digits start behind the letter and the sign
    have hparts : p.Passes (e :: sign ++ ds) q := h
    have hdigits : digits? (p.skip (e :: sign).length) = some q :=
      digits?_of_passes hds hparts.split.2 fun b hb => (hend b hb).1
    obtain ⟨d, r, rfl, hd⟩ := hds.head
    rw [exponent?, h.rest]
    rcases hsign with _ | ⟨_, _ | ⟨_, _ | ⟨_, hsign⟩⟩⟩
    · have hsigned : ¬ (decide (d = 0x2B) || decide (d = 0x2D)) = true := by
        intro hsigned
        rcases (by simpa using hsigned : d = 0x2B ∨ d = 0x2D) with rfl | rfl <;>
          exact absurd hd (by decide)
      simp only [List.nil_append, List.cons_append, if_pos he, if_neg hsigned]
      exact hdigits
    · simp only [List.cons_append, if_pos he]
      exact hdigits
    · simp only [List.cons_append, if_pos he]
      exact hdigits
    · exact nomatch hsign

/-- The text of a number is read to its end. -/
theorem number?_of_passes (hbs : NumberText bs) (h : p.Passes bs q) (hend : Ended q.rest) :
    number? p = some q := by
  obtain ⟨sign, whole, fraction, exponent, hsign, hwhole, hfraction, hexponent, rfl⟩ := hbs
  obtain ⟨hp₁, h₁⟩ := h.split
  obtain ⟨hp₂, h₂⟩ := h₁.split
  obtain ⟨hp₃, h₃⟩ := h₂.split
  have hclear := hend.clear
  have hbehindWhole : ∀ b ∈ (fraction ++ (exponent ++ q.rest)).head?, isDigit b = false :=
    head?_append_imp (fun b hb => by rw [hfraction.head b hb]; decide)
      (head?_append_imp (fun b hb => by rcases hexponent.head b hb with rfl | rfl <;> decide)
        fun b hb => (hclear b hb).1)
  have hbehindFraction : ∀ b ∈ (exponent ++ q.rest).head?, isDigit b = false ∧ b ≠ 0x2E :=
    head?_append_imp (fun b hb => by rcases hexponent.head b hb with rfl | rfl <;> decide)
      fun b hb => ⟨(hclear b hb).1, (hclear b hb).2.1⟩
  rw [number?_eq, pastSign_of_passes hsign hp₁, whole?_of_passes hwhole hp₂, Option.bind_some,
    fraction?_of_passes hfraction hp₃, Option.bind_some, exponent?_of_passes hexponent h₃]
  · exact fun b hb => ⟨(hclear b hb).1, (hclear b hb).2.2⟩
  · rw [h₃.rest]
    exact hbehindFraction
  · rw [h₂.rest, List.append_assoc]
    exact hbehindWhole
  · obtain ⟨b, r, rfl, hb⟩ := hwhole.head
    rw [hp₂.head]
    rintro ⟨⟩
    exact absurd hb (by decide)

end Complete

/-! ### Strings -/

/-- What stands between the quotes of a string, and its content. A surrogate is a character only
with the escaped unit behind it. -/
inductive StringText : Bytes → Bytes → Prop
  | done : StringText [] []
  | plain {b : UInt8} {r content : Bytes} : 0x20 ≤ b → b ≠ 0x22 → b ≠ 0x5C →
      StringText r content → StringText (b :: r) (b :: content)
  | escape {e b : UInt8} {r content : Bytes} : simpleEscape? e = some b →
      StringText r content → StringText (0x5C :: e :: r) (b :: content)
  | unit {a b c d : UInt8} {u : Nat} {r content : Bytes} : unit? a b c d = some u →
      (isSurrogate u = true → ¬ [0x5C, 0x75] <+: r) → StringText r content →
      StringText (0x5C :: 0x75 :: a :: b :: c :: d :: r)
        (String.utf8EncodeChar (unitChar u) ++ content)
  | pair {a b c d e f g h : UInt8} {u low : Nat} {r content : Bytes} : unit? a b c d = some u →
      isSurrogate u = true → unit? e f g h = some low → StringText r content →
      StringText (0x5C :: 0x75 :: a :: b :: c :: d :: 0x5C :: 0x75 :: e :: f :: g :: h :: r)
        (String.utf8EncodeChar (pairChar u low) ++ content)

theorem StringText.unit_ahead {r content : Bytes} (h : StringText (0x5C :: 0x75 :: r) content) :
    ∃ a b c d r', r = a :: b :: c :: d :: r' := by
  cases h with
  | plain _ _ hslash => exact absurd rfl hslash
  | escape he => exact nomatch he
  | unit => exact ⟨_, _, _, _, _, rfl⟩
  | pair => exact ⟨_, _, _, _, _, rfl⟩

-- the equations are made once, ahead of the lemmas that rewrite with them
attribute [local simp] string?

/-- What is read behind one character. -/
theorem string?_tail {r content : Bytes} {n k : Nat} {f : Bytes → Bytes}
    (h : (string? r).bind (fun x => some (f x.1, x.2 + k)) = some (content, n)) :
    ∃ content' n', string? r = some (content', n') ∧ content = f content' ∧ n = n' + k := by
  obtain ⟨⟨content', n'⟩, hr, h⟩ := Option.bind_eq_some_iff.mp h
  obtain ⟨rfl, rfl⟩ := Prod.mk.inj (Option.some.inj h)
  exact ⟨content', n', hr, rfl, rfl⟩

theorem string?_sound {bs content : Bytes} {n : Nat} (h : string? bs = some (content, n)) :
    ∃ body r, bs = body ++ 0x22 :: r ∧ n = body.length + 1 ∧ StringText body content := by
  fun_induction string? bs generalizing content n with
  | case1 => cases h
  | case2 r =>
    cases h
    exact ⟨[], r, rfl, rfl, .done⟩
  | case3 a b c d e f g h' r ihPair ihUnit =>
    obtain ⟨u, hu, h⟩ := Option.bind_eq_some_iff.mp h
    split at h
    · next hsurrogate =>
      obtain ⟨low, hlow, h⟩ := Option.bind_eq_some_iff.mp h
      obtain ⟨content, n, hr, rfl, rfl⟩ := string?_tail h
      obtain ⟨body, rest, rfl, rfl, hbody⟩ := ihPair hr
      exact ⟨_, rest, rfl, rfl, .pair hu hsurrogate hlow hbody⟩
    · next hsurrogate =>
      obtain ⟨content, n, hr, rfl, rfl⟩ := string?_tail h
      obtain ⟨body, rest, heq, rfl, hbody⟩ := ihUnit hr
      exact ⟨0x5C :: 0x75 :: a :: b :: c :: d :: body, rest, by rw [heq]; rfl, rfl,
        .unit hu (fun h => absurd h hsurrogate) hbody⟩
  | case4 a b c d r hnot ih =>
    obtain ⟨u, hu, h⟩ := Option.bind_eq_some_iff.mp h
    obtain ⟨content, n, hr, rfl, rfl⟩ := string?_tail h
    obtain ⟨body, rest, rfl, rfl, hbody⟩ := ih hr
    refine ⟨0x5C :: 0x75 :: a :: b :: c :: d :: body, rest, rfl, rfl, .unit hu ?_ hbody⟩
    -- a unit behind this one would have been read with it
    rintro - ⟨t, rfl⟩
    obtain ⟨e, f, g, h', r', rfl⟩ := hbody.unit_ahead
    exact hnot e f g h' (r' ++ 0x22 :: rest) rfl
  | case5 e r _ _ ih =>
    obtain ⟨b, hb, h⟩ := Option.bind_eq_some_iff.mp h
    obtain ⟨content, n, hr, rfl, rfl⟩ := string?_tail (f := (b :: ·)) h
    obtain ⟨body, rest, rfl, rfl, hbody⟩ := ih hr
    exact ⟨0x5C :: e :: body, rest, rfl, rfl, .escape hb hbody⟩
  | case6 => cases h
  | case7 b r hquote _ _ _ hplain ih =>
    obtain ⟨content, n, hr, rfl, rfl⟩ := string?_tail (f := (b :: ·)) h
    obtain ⟨body, rest, rfl, rfl, hbody⟩ := ih hr
    simp only [Bool.or_eq_true, decide_eq_true_eq, not_or, UInt8.not_lt] at hplain
    exact ⟨b :: body, rest, rfl, rfl, .plain hplain.1 hquote hplain.2 hbody⟩

/-- A unit that takes none along is read alone. -/
theorem string?_unit {a b c d : UInt8} {u n : Nat} {r content : Bytes}
    (hu : unit? a b c d = some u) (halone : isSurrogate u = true → ¬ [0x5C, 0x75] <+: r)
    (hr : string? r = some (content, n)) :
    string? (0x5C :: 0x75 :: a :: b :: c :: d :: r) =
      some (String.utf8EncodeChar (unitChar u) ++ content, n + 6) := by
  rw [string?.eq_def]
  split
  · rename_i heq
    cases heq
  · rename_i heq
    exact absurd (List.cons.inj heq).1 (by decide)
  · rename_i heq
    cases heq
    have hsurrogate : ¬ isSurrogate u = true := fun hu => halone hu ⟨_, rfl⟩
    simp only [hu, hr, if_neg hsurrogate, Option.bind_eq_bind, Option.bind_some, Option.pure_def]
  · rename_i heq
    cases heq
    simp only [hu, hr, Option.bind_eq_bind, Option.bind_some, Option.pure_def]
  · rename_i hnot heq
    cases heq
    exact (hnot _ _ _ _ _ rfl rfl).elim
  · rename_i hnot heq
    cases heq
    exact (hnot _ _ rfl rfl).elim

theorem string?_escape {e b : UInt8} {n : Nat} {r content : Bytes}
    (he : simpleEscape? e = some b) (hr : string? r = some (content, n)) :
    string? (0x5C :: e :: r) = some (b :: content, n + 2) := by
  have hletter : e ≠ 0x75 := by
    rintro rfl
    exact nomatch he
  rw [string?.eq_def]
  split
  · rename_i heq
    cases heq
  · rename_i heq
    exact absurd (List.cons.inj heq).1 (by decide)
  · rename_i heq
    exact absurd (List.cons.inj (List.cons.inj heq).2).1 hletter
  · rename_i heq
    exact absurd (List.cons.inj (List.cons.inj heq).2).1 hletter
  · rename_i heq
    cases heq
    simp only [he, hr, Option.bind_eq_bind, Option.bind_some, Option.pure_def]
  · rename_i hnot heq
    cases heq
    exact (hnot _ _ rfl rfl).elim

theorem string?_plain {b : UInt8} {n : Nat} {r content : Bytes} (hlow : 0x20 ≤ b)
    (hquote : b ≠ 0x22) (hslash : b ≠ 0x5C) (hr : string? r = some (content, n)) :
    string? (b :: r) = some (b :: content, n + 1) := by
  rw [string?.eq_def]
  split
  · rename_i heq
    cases heq
  · rename_i heq
    exact absurd (List.cons.inj heq).1 hquote
  · rename_i heq
    exact absurd (List.cons.inj heq).1 hslash
  · rename_i heq
    exact absurd (List.cons.inj heq).1 hslash
  · rename_i heq
    exact absurd (List.cons.inj heq).1 hslash
  · rename_i heq
    cases heq
    rw [if_neg (by simp [hslash, UInt8.not_lt.mpr hlow]), hr]
    rfl

/-- The text of a string is read up to its closing quote. -/
theorem string?_of_text {body content : Bytes} (h : StringText body content) (r : Bytes) :
    string? (body ++ 0x22 :: r) = some (content, body.length + 1) := by
  induction h with
  | done => rfl
  | plain hlow hquote hslash _ ih => exact string?_plain hlow hquote hslash ih
  | escape he _ ih => exact string?_escape he ih
  | @unit _ _ _ _ u r' _ hu halone hr' ih =>
    refine string?_unit hu (fun hsurrogate hprefix => halone hsurrogate ?_) ih
    -- the quote behind the string starts no unit
    rcases r' with _ | ⟨x, _ | ⟨y, t⟩⟩
    · obtain ⟨t, ht⟩ := hprefix
      exact absurd (List.cons.inj ht).1 (by decide)
    · obtain ⟨t, ht⟩ := hprefix
      exact absurd (List.cons.inj (List.cons.inj ht).2).1 (by decide)
    · obtain ⟨t', ht⟩ := hprefix
      cases ht
      exact ⟨t, rfl⟩
  | pair hu hsurrogate hlow _ ih =>
    simp only [List.cons_append, string?, hu, hlow, ih, if_pos hsurrogate, Option.bind_eq_bind,
      Option.bind_some, Option.pure_def]
    rfl

end Phrasebook.LocatedJson
