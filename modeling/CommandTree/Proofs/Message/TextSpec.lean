import CommandTree.Message.Presented
import CommandTree.Proofs.Decimal.Written

/-!
# The grammar of presentations of texts

A presentation says more of numbers than of texts. Of a text it can say on which side it is filled
up and with which character, up to which width, and at which length it is cut off before:

`[[fill]side][width][.limit][s]`

A width that begins with a zero fills up with zeros, unless a character is given to fill up with.
Said as a grammar, this is what presentations of texts are: a text is presented by every
presentation that the grammar writes, as its layout says, and by no other one.

* `Layout.applied`: what a layout makes of a text
* `WritesLayout`: how a layout is written
* `presentAsText_eq_ok_iff`: the presentations of texts are those that write a layout
-/

namespace CommandTree.Message

open Text

/-! ## Layouts -/

/-- What a presentation says about a text. -/
structure Layout where
  /-- What the text is filled up with. -/
  fill : Char
  side : Alignment
  /-- How long the text is, at least. -/
  width : Nat
  /-- Where the text is cut off. -/
  limit : Option Nat

namespace Layout

/-- What is left of a text where it is cut off. -/
def kept (layout : Layout) (cs : List Char) : List Char :=
  match layout.limit with
  | some n => cs.take n
  | none => cs

/-- How many characters fill up a text. -/
def missing (layout : Layout) (cs : List Char) : Nat :=
  layout.width - (layout.kept cs).length

/-- How many of the characters that fill up a text stand before it. -/
def before (layout : Layout) (cs : List Char) : Nat :=
  match layout.side with
  | .left => 0
  | .center => layout.missing cs / 2
  | .right | .inner => layout.missing cs

/-- The text that is cut off and filled up. -/
def applied (layout : Layout) (cs : List Char) : List Char :=
  List.replicate (layout.before cs) layout.fill
    ++ (layout.kept cs ++ List.replicate (layout.missing cs - layout.before cs) layout.fill)

end Layout

/-! ## The grammar -/

/-- An optional side, with an optional character to fill up with. -/
inductive WritesSide : List Char → Option Char → Option Alignment → Prop
  | none : WritesSide [] none none
  | side {a : Char} {side : Alignment} (h : Alignment.ofChar? a = some side) :
    WritesSide [a] none (some side)
  | filled (fill : Char) {a : Char} {side : Alignment} (h : Alignment.ofChar? a = some side) :
    WritesSide [fill, a] (some fill) (some side)

/-- An optional length at which a text is cut off. -/
inductive WritesLimit : List Char → Option Nat → Prop
  | none : WritesLimit [] none
  | point {digits : List Char} {values : List Nat} (h : AreDigits digits values)
      (hne : values ≠ []) (hlt : digitsValue values < numberLimit) :
    WritesLimit ('.' :: digits) (some (digitsValue values))

/-- Whether a text writes a layout: an optional side, a width, an optional limit, and an optional
letter. -/
def WritesLayout (spec : List Char) (layout : Layout) : Prop :=
  ∃ lead fill side width values limit mark, spec = lead ++ (width ++ (limit ++ mark)) ∧
    WritesSide lead fill side ∧ AreDigits width values ∧ WritesLimit limit layout.limit ∧
    (mark = [] ∨ mark = ['s']) ∧
    layout.fill = fill.getD (if width.head? = some '0' then '0' else ' ') ∧
    layout.side = side.getD .left ∧ layout.side ≠ .inner ∧
    layout.width = digitsValue values ∧ layout.width < lengthLimit

/-! ## What follows the side -/

/-- Whether a character can stand behind the side. -/
def FollowsSide (c : Char) : Prop := digitValue? c ≠ none ∨ c = '.' ∨ c = 's'

theorem FollowsSide.ne {c d : Char} (h : FollowsSide c) (hd : digitValue? d = none)
    (hpoint : d ≠ '.') (hletter : d ≠ 's') : c ≠ d := by
  rintro rfl
  rcases h with h | h | h
  · exact h hd
  · exact hpoint h
  · exact hletter h

theorem FollowsSide.ofChar? {c : Char} (h : FollowsSide c) : Alignment.ofChar? c = none := by
  rw [Alignment.ofChar?, if_neg (h.ne rfl (by decide) (by decide)),
    if_neg (h.ne rfl (by decide) (by decide)), if_neg (h.ne rfl (by decide) (by decide)),
    if_neg (h.ne rfl (by decide) (by decide))]

theorem followsSide_of_areDigits {cs : List Char} {values : List Nat} (h : AreDigits cs values) :
    ∀ c ∈ cs, FollowsSide c := by
  intro c hc
  have hmem : digitValue? c ∈ cs.map digitValue? := List.mem_map_of_mem hc
  rw [show cs.map digitValue? = values.map some from h] at hmem
  obtain ⟨value, -, hvalue⟩ := List.mem_map.mp hmem
  refine Or.inl fun hnone => ?_
  rw [hnone] at hvalue
  cases hvalue

theorem WritesLimit.followsSide {cs : List Char} {limit : Option Nat} (h : WritesLimit cs limit) :
    ∀ c ∈ cs, FollowsSide c := by
  cases h with
  | none => nofun
  | point h hne hlt =>
    exact List.forall_mem_cons.mpr ⟨Or.inr (Or.inl rfl), followsSide_of_areDigits h⟩

theorem followsSide_of_mark {mark : List Char} (h : mark = [] ∨ mark = ['s']) :
    ∀ c ∈ mark, FollowsSide c := by
  rcases h with rfl | rfl
  · nofun
  · exact List.forall_mem_singleton.mpr (Or.inr (Or.inr rfl))

theorem endsDigits_mark {mark : List Char} (h : mark = [] ∨ mark = ['s']) : EndsDigits mark := by
  rcases h with rfl | rfl
  · exact endsDigits_nil
  · rintro first hfirst
    cases hfirst
    rfl

theorem WritesLimit.endsDigits {cs mark : List Char} {limit : Option Nat} (h : WritesLimit cs limit)
    (hmark : mark = [] ∨ mark = ['s']) : EndsDigits (cs ++ mark) := by
  cases h with
  | none => exact endsDigits_mark hmark
  | point h hne hlt => exact endsDigits_point _

/-! ## Reading what is written -/

variable {cs rest : List Char}

theorem skipChar_of_forall {c : Char} (h : ∀ d ∈ cs, d ≠ c) : skipChar c cs = (false, cs) := by
  cases cs with
  | nil => rfl
  | cons d cs => rw [skipChar, if_neg (h d (List.mem_cons_self ..))]

theorem readAlignment_append {lead : List Char} {fill : Option Char} {side : Option Alignment}
    (h : WritesSide lead fill side) (hrest : ∀ c ∈ rest, FollowsSide c) :
    readAlignment (lead ++ rest) = (fill, side, rest) := by
  cases h with
  | none =>
    match rest, hrest with
    | [], _ => rfl
    | [a], hrest =>
      have ha := (hrest a (by simp)).ofChar?
      simp [readAlignment, ha]
    | f :: a :: rest, hrest =>
      have hf := (hrest f (by simp)).ofChar?
      have ha := (hrest a (by simp)).ofChar?
      simp [readAlignment, hf, ha]
  | @side a side h =>
    match rest, hrest with
    | [], _ => simp [readAlignment, h]
    | c :: rest, hrest =>
      have hc := (hrest c (by simp)).ofChar?
      simp [readAlignment, h, hc]
  | filled fill h => simp [readAlignment, h]

theorem readSign_of_forall (h : ∀ c ∈ cs, FollowsSide c) : readSign cs = (none, cs) := by
  cases cs with
  | nil => rfl
  | cons c cs =>
    have hc := h c (List.mem_cons_self ..)
    have hplus : c ≠ '+' := hc.ne rfl (by decide) (by decide)
    have hminus : c ≠ '-' := hc.ne rfl (by decide) (by decide)
    have hblank : c ≠ ' ' := hc.ne rfl (by decide) (by decide)
    simp [readSign, hplus, hminus, hblank]

theorem readNatural_append {digits : List Char} {values : List Nat} (h : AreDigits digits values)
    (hrest : EndsDigits rest) (hlt : digitsValue values < numberLimit) :
    readNatural (digits ++ rest)
      = .ok (if values = [] then none else some (digitsValue values), rest) := by
  simp [readNatural, spanDigits_append h hrest, hlt]

theorem readSeparator_of_forall (h : ∀ c ∈ cs, FollowsSide c) :
    readSeparator cs = .ok (none, cs) := by
  have hcomma := skipChar_of_forall (c := ',') fun d hd => (h d hd).ne rfl (by decide) (by decide)
  have hunder := skipChar_of_forall (c := '_') fun d hd => (h d hd).ne rfl (by decide) (by decide)
  simp [readSeparator, hcomma, hunder]

theorem readPrecision_append {cs mark : List Char} {limit : Option Nat} (h : WritesLimit cs limit)
    (hmark : mark = [] ∨ mark = ['s']) : readPrecision (cs ++ mark) = .ok (limit, mark) := by
  cases h with
  | none => rcases hmark with rfl | rfl <;> rfl
  | point h hne hlt =>
    have hread := readNatural_append h (endsDigits_mark hmark) hlt
    rw [if_neg hne] at hread
    simp [readPrecision, skipChar, hread, bind, Except.bind]

/-- A zero that a width begins with does not count, whether it is skipped or not. -/
theorem skipChar_zero {digits : List Char} {values : List Nat} (h : AreDigits digits values)
    (hrest : EndsDigits rest) :
    ∃ others left, skipChar '0' (digits ++ rest)
        = (decide (digits.head? = some '0'), others ++ rest) ∧
      AreDigits others left ∧ digitsValue left = digitsValue values := by
  rcases h.cases with ⟨rfl, rfl⟩ | ⟨c, ds, value, left, rfl, rfl, hc, hds⟩
  · refine ⟨[], [], ?_, rfl, rfl⟩
    cases rest with
    | nil => rfl
    | cons c rest =>
      have hne : c ≠ '0' := by
        rintro rfl
        exact absurd (hrest '0' rfl) (by decide)
      simp [skipChar, hne]
  · by_cases hzero : c = '0'
    · subst hzero
      cases hc
      exact ⟨ds, left, by simp [skipChar], hds, rfl⟩
    · exact ⟨c :: ds, value :: left, by simp [skipChar, hzero], h, rfl⟩

/-! ## Writing what is read -/

theorem readAlignment_split {fill : Option Char} {side : Option Alignment}
    (h : readAlignment cs = (fill, side, rest)) :
    ∃ lead, cs = lead ++ rest ∧ WritesSide lead fill side := by
  unfold readAlignment at h
  split at h
  · next f a others =>
    split at h
    · next hside =>
      cases h
      exact ⟨[f, a], rfl, .filled f hside⟩
    · next hside =>
      cases h
      exact ⟨[f], rfl, .side hside⟩
    · cases h
      exact ⟨[], rfl, .none⟩
  · next a =>
    split at h
    · next hside =>
      cases h
      exact ⟨[a], rfl, .side hside⟩
    · cases h
      exact ⟨[], rfl, .none⟩
  · cases h
    exact ⟨[], rfl, .none⟩

theorem eq_of_readSign_none (h : readSign cs = (none, rest)) : rest = cs := by
  unfold readSign at h
  split at h
  · split at h
    · cases h
    · cases h
      rfl
  · cases h
    rfl

theorem skipChar_eq_false {c : Char} (h : skipChar c cs = (false, rest)) :
    rest = cs ∧ cs.head? ≠ some c := by
  unfold skipChar at h
  split at h
  · split at h
    · cases h
    · next hne =>
      cases h
      exact ⟨rfl, fun heq => hne (Option.some.inj heq)⟩
  · cases h
    exact ⟨rfl, nofun⟩

theorem skipChar_eq_true {c : Char} (h : skipChar c cs = (true, rest)) : cs = c :: rest := by
  unfold skipChar at h
  split at h
  · split at h
    · next heq =>
      cases h
      rw [heq]
    · cases h
  · cases h

theorem readNatural_split {n : Option Nat} (h : readNatural cs = .ok (n, rest)) :
    ∃ digits values, cs = digits ++ rest ∧ AreDigits digits values ∧
      digitsValue values < numberLimit ∧
      n = if values = [] then none else some (digitsValue values) := by
  obtain ⟨digits, hcs, hdigits, -⟩ := spanDigits_split cs
  rcases hspan : spanDigits cs with ⟨values, left⟩
  rw [hspan] at hcs hdigits
  rw [readNatural, hspan] at h
  dsimp only at h
  by_cases hlimit : numberLimit ≤ digitsValue values
  · rw [if_pos hlimit] at h
    cases h
  · rw [if_neg hlimit, Except.ok.injEq, Prod.mk.injEq] at h
    obtain ⟨rfl, rfl⟩ := h
    refine ⟨digits, values, hcs, hdigits, Nat.not_le.mp hlimit, ?_⟩
    simp only [List.isEmpty_iff]

theorem eq_of_readSeparator_none (h : readSeparator cs = .ok (none, rest)) : rest = cs := by
  rcases hcomma : skipChar ',' cs with ⟨comma, behind⟩
  rcases hunder : skipChar '_' behind with ⟨underscore, last⟩
  rw [readSeparator, hcomma] at h
  dsimp only at h
  rw [hunder] at h
  dsimp only at h
  cases comma with
  | true =>
    split at h <;> cases h
  | false =>
    cases underscore with
    | true => split at h <;> cases h
    | false =>
      rw [(skipChar_eq_false hcomma).1] at hunder
      cases h
      exact (skipChar_eq_false hunder).1

theorem readPrecision_split {limit : Option Nat} (h : readPrecision cs = .ok (limit, rest)) :
    ∃ text, cs = text ++ rest ∧ WritesLimit text limit := by
  rcases hpoint : skipChar '.' cs with ⟨point, behind⟩
  rw [readPrecision, hpoint] at h
  dsimp only at h
  cases point with
  | false =>
    cases h
    exact ⟨[], (skipChar_eq_false hpoint).1.symm, .none⟩
  | true =>
    rw [if_pos rfl] at h
    cases hnatural : readNatural behind with
    | error f =>
      rw [hnatural] at h
      cases h
    | ok read =>
      obtain ⟨n, left⟩ := read
      rw [hnatural] at h
      obtain ⟨digits, values, hbehind, hdigits, hlt, hn⟩ := readNatural_split hnatural
      cases n with
      | none => cases h
      | some n =>
        cases h
        split at hn
        · cases hn
        · next hne =>
          cases hn
          refine ⟨'.' :: digits, ?_, .point hdigits hne hlt⟩
          rw [skipChar_eq_true hpoint, hbehind, List.cons_append]

/-! ## Reading a layout -/

/-- A layout as a presentation; a width of zero may be left out. -/
def Layout.presentation (layout : Layout) (width : Option Nat) : Presentation where
  fill := layout.fill
  alignment := layout.side
  sign := none
  plainZero := false
  alternate := false
  width := width
  separator := none
  precision := layout.limit
  code := some 's'

theorem filled_presentation {layout : Layout} {width : Option Nat} (hside : layout.side ≠ .inner)
    (hwidth : width.getD 0 = layout.width) (cs : List Char) :
    (layout.presentation width).filled [] (layout.kept cs) = layout.applied cs := by
  have hmissing :
      width.getD 0 - (([] : List Char).length + (layout.kept cs).length) = layout.missing cs := by
    rw [hwidth, List.length_nil, Nat.zero_add, Layout.missing]
  unfold Presentation.filled Layout.applied Layout.before Layout.presentation
  dsimp only
  rw [hmissing]
  cases hs : layout.side with
  | inner => exact absurd hs hside
  | left => simp
  | right => simp
  | center => simp

/-- A text is presented as its layout says. -/
theorem presentText_presentation {layout : Layout} {width : Option Nat}
    (hside : layout.side ≠ .inner) (hwidth : width.getD 0 = layout.width)
    (hlt : layout.width < lengthLimit) (cs : List Char) :
    presentText (layout.presentation width) cs = .ok (layout.applied cs) := by
  have hfeasible : feasible (width.getD 0) = .ok layout.width := by
    rw [feasible, hwidth, if_neg (Nat.not_le.mpr hlt)]
  have hfitted : presentText (layout.presentation width) cs
      = (layout.presentation width).fitted [] (layout.kept cs) := by
    show (if layout.side = .inner then _ else _) = _
    rw [if_neg hside]
    rfl
  rw [hfitted, Presentation.fitted, filled_presentation hside hwidth]
  show (do let _ ← feasible (width.getD 0); Except.ok (layout.applied cs)) = _
  rw [hfeasible]
  rfl

/-- Where there is a separator, it has to fit the notation. -/
theorem checkSeparator_eq_ok_iff {separator code : Option Char} {p q : Presentation} :
    (match separator, code with
      | some s, some c => if separatorFits s c then .ok q else .error (.separatorRefused s c)
      | _, _ => .ok q : Except TemplateFault Presentation) = .ok p ↔
      (∀ s ∈ separator, ∀ c ∈ code, separatorFits s c = true) ∧ q = p := by
  split
  · next s c =>
    split
    · next hfits =>
      rw [Except.ok.injEq]
      refine ⟨fun heq => ⟨?_, heq⟩, And.right⟩
      rintro s' hs c' hc
      cases hs
      cases hc
      exact hfits
    · next hfits => exact iff_of_false nofun fun h => hfits (h.1 s rfl c rfl)
  · next hnone =>
    rw [Except.ok.injEq]
    exact ⟨fun heq => ⟨fun s hs c hc => absurd hc fun hc => hnone s c hs hc, heq⟩, And.right⟩

/-- The reader of presentations of texts, part by part. -/
theorem ofChars_text_eq_ok_iff {kindName : String} {spec : List Char} {p : Presentation} :
    Presentation.ofChars kindName ⟨.left, some 's'⟩ spec = .ok p ↔
      ∃ fill side zero signed coerced marked padded sized grouped cut mark,
        readAlignment spec = (fill, side, signed) ∧
        readSign signed = (p.sign, coerced) ∧
        skipChar 'z' coerced = (p.plainZero, marked) ∧
        skipChar '#' marked = (p.alternate, padded) ∧
        (if fill.isNone then skipChar '0' padded else (false, padded)) = (zero, sized) ∧
        readNatural sized = .ok (p.width, grouped) ∧
        readSeparator grouped = .ok (p.separator, cut) ∧
        readPrecision cut = .ok (p.precision, mark) ∧
        (mark = [] ∧ p.code = some 's' ∨ ∃ c, mark = [c] ∧ p.code = some c) ∧
        (∀ s ∈ p.separator, ∀ c ∈ p.code, separatorFits s c = true) ∧
        p.fill = fill.getD (if zero then '0' else ' ') ∧ p.alignment = side.getD .left := by
  -- a zero does not move a text to the other side, as it does with numbers
  have husual (zero : Bool) :
      (if zero && decide (Alignment.left = .right) then Alignment.inner else .left) = .left := by
    simp
  constructor
  · intro h
    unfold Presentation.ofChars at h
    dsimp only [bind, Except.bind, pure, Except.pure] at h
    rcases halign : readAlignment spec with ⟨fill, side, signed⟩
    rw [halign] at h
    dsimp only at h
    rcases hsign : readSign signed with ⟨sign, coerced⟩
    rw [hsign] at h
    dsimp only at h
    rcases hz : skipChar 'z' coerced with ⟨plainZero, marked⟩
    rw [hz] at h
    dsimp only at h
    rcases hsharp : skipChar '#' marked with ⟨alternate, padded⟩
    rw [hsharp] at h
    dsimp only at h
    rcases hzero : (if fill.isNone then skipChar '0' padded else (false, padded)) with ⟨zero, sized⟩
    rw [hzero] at h
    dsimp only at h
    split at h
    · cases h
    · next width hwidth =>
      split at h
      · cases h
      · next separator hseparator =>
        split at h
        · cases h
        · next precision hprecision =>
          rw [husual] at h
          split at h
          · next hmark =>
            obtain ⟨hfits, rfl⟩ := checkSeparator_eq_ok_iff.mp h
            exact ⟨fill, side, zero, signed, coerced, marked, padded, sized, _, _, _, rfl, hsign,
              hz, hsharp, hzero, hwidth, hseparator, hprecision, Or.inl ⟨hmark, rfl⟩, hfits, rfl,
              rfl⟩
          · next c hmark =>
            obtain ⟨hfits, rfl⟩ := checkSeparator_eq_ok_iff.mp h
            exact ⟨fill, side, zero, signed, coerced, marked, padded, sized, _, _, _, rfl, hsign,
              hz, hsharp, hzero, hwidth, hseparator, hprecision, Or.inr ⟨c, hmark, rfl⟩, hfits, rfl,
              rfl⟩
          · cases h
  · rintro ⟨fill, side, zero, signed, coerced, marked, padded, sized, grouped, cut, mark, halign,
      hsign, hz, hsharp, hzero, hwidth, hseparator, hprecision, hcode, hfits, hfill, hside⟩
    unfold Presentation.ofChars
    rw [halign]
    dsimp only [bind, Except.bind, pure, Except.pure]
    rw [hsign]
    dsimp only
    rw [hz]
    dsimp only
    rw [hsharp]
    dsimp only
    rw [hzero]
    dsimp only
    rw [hwidth]
    dsimp only
    rw [hseparator]
    dsimp only
    rw [hprecision]
    dsimp only
    rw [husual]
    rcases hcode with ⟨rfl, hcode⟩ | ⟨c, rfl, hcode⟩
    · refine checkSeparator_eq_ok_iff.mpr ⟨hcode ▸ hfits, ?_⟩
      rw [← hfill, ← hside, ← hcode]
    · refine checkSeparator_eq_ok_iff.mpr ⟨hcode ▸ hfits, ?_⟩
      rw [← hfill, ← hside]
      exact congrArg (fun code => { p with code := code }) hcode.symm

theorem getD_number (values : List Nat) :
    (if values = [] then none else some (digitsValue values)).getD 0 = digitsValue values := by
  split
  · next hnil =>
    rw [hnil]
    rfl
  · rfl

/-- What writes a layout is read as it. -/
theorem ofChars_of_writesLayout {spec : List Char} {layout : Layout} (h : WritesLayout spec layout)
    (kindName : String) :
    ∃ width, Presentation.ofChars kindName ⟨.left, some 's'⟩ spec
        = .ok (layout.presentation width) ∧ width.getD 0 = layout.width := by
  obtain ⟨lead, fill, side, digits, values, limit, mark, rfl, hlead, hdigits, hlimit, hmark, hfill,
    hside, -, hwidth, hlt⟩ := h
  have htail : ∀ c ∈ limit ++ mark, FollowsSide c :=
    List.forall_mem_append.mpr ⟨hlimit.followsSide, followsSide_of_mark hmark⟩
  have hbody : ∀ c ∈ digits ++ (limit ++ mark), FollowsSide c :=
    List.forall_mem_append.mpr ⟨followsSide_of_areDigits hdigits, htail⟩
  have hends := hlimit.endsDigits hmark
  -- whether a zero in front is skipped depends on whether a character to fill up with is given
  obtain ⟨zero, others, left, hzero, hothers, hvalue, hfilled⟩ :
      ∃ zero others left, (if fill.isNone then skipChar '0' (digits ++ (limit ++ mark))
            else (false, digits ++ (limit ++ mark))) = (zero, others ++ (limit ++ mark)) ∧
          AreDigits others left ∧ digitsValue left = digitsValue values ∧
          layout.fill = fill.getD (if zero then '0' else ' ') := by
    cases fill with
    | none =>
      obtain ⟨others, left, hskip, hothers, hvalue⟩ := skipChar_zero hdigits hends
      exact ⟨_, others, left, hskip, hothers, hvalue, by simpa using hfill⟩
    | some fill => exact ⟨false, digits, values, rfl, hdigits, rfl, hfill⟩
  have hsmall : digitsValue left < numberLimit := by
    rw [hvalue, ← hwidth]
    exact Nat.lt_trans hlt (by decide)
  refine ⟨if left = [] then none else some (digitsValue left),
    ofChars_text_eq_ok_iff.mpr ⟨fill, side, zero, _, _, _, _, _, _, _, mark,
    readAlignment_append hlead hbody, readSign_of_forall hbody,
    skipChar_of_forall fun d hd => (hbody d hd).ne rfl (by decide) (by decide),
    skipChar_of_forall fun d hd => (hbody d hd).ne rfl (by decide) (by decide), hzero,
    readNatural_append hothers hends hsmall, readSeparator_of_forall htail,
    readPrecision_append hlimit hmark, ?_, nofun, hfilled, hside⟩, ?_⟩
  · rcases hmark with rfl | rfl
    · exact Or.inl ⟨rfl, rfl⟩
    · exact Or.inr ⟨'s', rfl, rfl⟩
  · rw [hwidth, ← hvalue, getD_number]

/-- What is read as a presentation that a text can have writes a layout. -/
theorem writesLayout_of_ofChars {kindName : String} {spec : List Char} {p : Presentation}
    (h : Presentation.ofChars kindName ⟨.left, some 's'⟩ spec = .ok p) (hsign : p.sign = none)
    (hz : p.plainZero = false) (hsharp : p.alternate = false) (hcode : p.code = some 's')
    (hside : p.alignment ≠ .inner) (hlt : p.width.getD 0 < lengthLimit) :
    ∃ layout, WritesLayout spec layout ∧ p = layout.presentation p.width ∧
      p.width.getD 0 = layout.width := by
  obtain ⟨fill, side, zero, signed, coerced, marked, padded, sized, grouped, cut, mark, halign,
    hreadSign, hreadZ, hreadSharp, hzero, hwidth, hseparator, hprecision, hmark, hfits, hfill,
    haligned⟩ := ofChars_text_eq_ok_iff.mp h
  -- no separator fits the notation of texts
  have hnone : p.separator = none := by
    refine Option.eq_none_iff_forall_not_mem.mpr fun s hs => ?_
    have hfit := hfits s hs 's' hcode
    simp [separatorFits, noCode] at hfit
  rw [hsign] at hreadSign
  rw [hz] at hreadZ
  rw [hsharp] at hreadSharp
  rw [hnone] at hseparator
  obtain ⟨lead, rfl, hlead⟩ := readAlignment_split halign
  obtain ⟨others, values, hsized, hothers, -, hnumber⟩ := readNatural_split hwidth
  obtain ⟨limit, hcut, hlimit⟩ := readPrecision_split hprecision
  obtain rfl := eq_of_readSign_none hreadSign
  obtain ⟨rfl, -⟩ := skipChar_eq_false hreadZ
  obtain ⟨rfl, -⟩ := skipChar_eq_false hreadSharp
  obtain rfl := eq_of_readSeparator_none hseparator
  have hmarked : mark = [] ∨ mark = ['s'] := by
    rcases hmark with ⟨hnil, -⟩ | ⟨c, hc, hletter⟩
    · exact Or.inl hnil
    · rw [hcode, Option.some.injEq] at hletter
      exact Or.inr (hletter ▸ hc)
  -- the width as it is written, with the zero that was skipped
  obtain ⟨digits, all, hpadded, hdigits, hvalue, hfilled⟩ : ∃ digits all,
      padded = digits ++ cut ∧ AreDigits digits all ∧ digitsValue all = digitsValue values ∧
        p.fill = fill.getD (if digits.head? = some '0' then '0' else ' ') := by
    cases fill with
    | some fill =>
      cases hzero
      exact ⟨others, values, hsized, hothers, rfl, hfill⟩
    | none =>
      cases zero with
      | true =>
        refine ⟨'0' :: others, 0 :: values, ?_, areDigits_cons.mpr ⟨rfl, hothers⟩, rfl, hfill⟩
        rw [skipChar_eq_true hzero, hsized, List.cons_append]
      | false =>
        obtain ⟨hsame, hhead⟩ := skipChar_eq_false hzero
        rw [hsame] at hsized
        refine ⟨others, values, hsized, hothers, rfl, ?_⟩
        rw [hfill, if_neg nofun, if_neg]
        intro hothersHead
        rw [hsized, List.head?_append, hothersHead] at hhead
        exact hhead rfl
  refine ⟨⟨p.fill, p.alignment, p.width.getD 0, p.precision⟩,
    ⟨lead, fill, side, digits, all, limit, mark, ?_, hlead, hdigits, hlimit, hmarked, hfilled,
      haligned, hside, ?_, hlt⟩, ?_, rfl⟩
  · rw [hpadded, hcut]
  · rw [hnumber, getD_number, hvalue]
  · cases p
    cases hsign
    cases hz
    cases hsharp
    cases hnone
    cases hcode
    rfl

/-- A presentation that a text can have says nothing of numbers and asks for no text that is too
long. -/
theorem of_presentText_eq_ok {p : Presentation} {cs text : List Char}
    (h : presentText p cs = .ok text) :
    p.sign = none ∧ p.plainZero = false ∧ p.alternate = false ∧ p.alignment ≠ .inner ∧
      p.width.getD 0 < lengthLimit := by
  unfold presentText at h
  split at h
  · cases h
  · cases h
  · next hsign =>
    split at h
    · cases h
    · next hz =>
      split at h
      · cases h
      · next hsharp =>
        split at h
        · cases h
        · next hside =>
          refine ⟨hsign, Bool.eq_false_iff.mpr hz, Bool.eq_false_iff.mpr hsharp, hside,
            Nat.not_le.mp fun hlong => ?_⟩
          rw [Presentation.fitted, feasible, if_pos hlong] at h
          cases h

theorem eq_ok_of_refuse {α : Type} {x : Except TemplateFault α} {a : α} (h : refuse x = .ok a) :
    x = .ok a := by
  cases x with
  | ok b =>
    cases h
    rfl
  | error f => cases h

/-- A text is presented as its layout says, by what writes a layout and by nothing else. -/
theorem presentAsText_eq_ok_iff {kindName s t : String} {spec : List Char} :
    presentAsText kindName s spec = .ok t ↔
      ∃ layout, WritesLayout spec layout ∧ t = String.ofList (layout.applied s.toList) := by
  constructor
  · intro h
    obtain ⟨p, hp, h⟩ := exists_of_bind_eq_ok h
    split at h
    · next hcode =>
      cases htext : presentText p s.toList with
      | error f =>
        rw [htext] at h
        cases h
      | ok text =>
        rw [htext] at h
        cases h
        obtain ⟨hsign, hz, hsharp, hside, hlt⟩ := of_presentText_eq_ok htext
        obtain ⟨layout, hwrites, heq, hwidth⟩ :=
          writesLayout_of_ofChars (eq_ok_of_refuse hp) hsign hz hsharp hcode hside hlt
        refine ⟨layout, hwrites, ?_⟩
        rw [heq] at hside htext
        rw [presentText_presentation hside hwidth (hwidth ▸ hlt)] at htext
        exact congrArg String.ofList (Except.ok.inj htext).symm
    · cases h
  · rintro ⟨layout, hwrites, rfl⟩
    obtain ⟨width, hread, hwidth⟩ := ofChars_of_writesLayout hwrites kindName
    obtain ⟨-, -, -, -, -, -, -, -, -, -, -, -, -, -, hside, -, hlt⟩ := hwrites
    rw [presentAsText, hread]
    show String.ofList <$> refuse (presentText (layout.presentation width) s.toList) = _
    rw [presentText_presentation hside hwidth hlt]
    rfl

/-! ## Texts that nothing is said about -/

/-- The layout of a text that nothing is said about. -/
def Layout.plain : Layout := ⟨' ', .left, 0, none⟩

theorem writesLayout_nil : WritesLayout [] Layout.plain :=
  ⟨[], none, none, [], [], [], [], rfl, .none, rfl, .none, Or.inl rfl, rfl, rfl, by decide,
    rfl, by decide⟩

theorem Layout.plain_applied (s : String) : s = String.ofList (Layout.plain.applied s.toList) := by
  simp [applied, kept, missing, before, plain]

/-- Where nothing is said, a text is presented as a text like everywhere else. -/
theorem present_string (s : String) (spec : List Char) :
    present (.string s) spec = presentAsText (Datum.string s).kindName s spec := by
  cases spec with
  | cons c cs => rfl
  | nil => exact (presentAsText_eq_ok_iff.mpr ⟨_, writesLayout_nil, Layout.plain_applied s⟩).symm

end CommandTree.Message
