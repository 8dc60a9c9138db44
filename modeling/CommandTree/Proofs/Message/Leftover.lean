import CommandTree.Proofs.Message.Rendering
import CommandTree.Proofs.Message.TextSpec

/-!
# Fields that nothing fills

Where a report has nothing under the key of a field, the key in its braces is put in. That is what a
key in braces looks like, so a field that is no more than that is left as it is. But the key in its
braces goes through the conversion and the presentation of the field like any other text, and
neither of them is put back. A field that has one of them never reads as it is written, and if its
presentation is not one for texts, there is no message at all.

* `Field.fillGap_eq_ok_iff`: what comes of a field that nothing fills
* `Field.Becomes.cleaned_ne`: with a conversion or a presentation, it is not what was written
* `Book.render_leftover_iff`: what comes of a message with such a field
-/

namespace CommandTree.Message

open Text

/-! ## Marks -/

/-- Whether a character is one that a conversion or a presentation begins with. -/
def IsMark (c : Char) : Prop := c = ':' ∨ c = '!'

section Marks

variable {m : Char}

theorem IsMark.ne {c : Char} (h : IsMark m) (hcolon : c ≠ ':') (hbang : c ≠ '!') : m ≠ c := by
  rintro rfl
  rcases h with h | h
  · exact hcolon h
  · exact hbang h

theorem IsMark.endsKey (h : IsMark m) : endsKey m = true := by
  rcases h with rfl | rfl <;> rfl

theorem IsMark.not_mem_toDigits (h : IsMark m) (n : Nat) : m ∉ Nat.toDigits 16 n := by
  have hdigit : ∀ k ∈ List.range 16, k.digitChar ≠ ':' ∧ k.digitChar ≠ '!' := by decide
  have hne {k : Nat} (hk : k < 16) : m ∉ [k.digitChar] := by
    obtain ⟨hcolon, hbang⟩ := hdigit k (List.mem_range.mpr hk)
    exact fun hmem => h.ne hcolon hbang (List.mem_singleton.mp hmem)
  induction n using Nat.strongRecOn with
  | ind n ih =>
    rw [Nat.toDigits_eq_if (by decide)]
    split
    · next hsmall => exact hne hsmall
    · rw [List.mem_append, not_or]
      exact ⟨ih (n / 16) (by omega), hne (Nat.mod_lt n (by decide))⟩

theorem IsMark.not_mem_hexPadded (h : IsMark m) (width n : Nat) : m ∉ hexPadded width n := by
  rw [hexPadded, List.mem_append, not_or]
  exact ⟨fun hmem => h.ne (by decide) (by decide) (List.eq_of_mem_replicate hmem),
    h.not_mem_toDigits n⟩

theorem IsMark.not_mem_pointEscape (h : IsMark m) (c : Char) : m ∉ pointEscape c := by
  have hescape (letter : Char) (hcolon : letter ≠ ':') (hbang : letter ≠ '!') (width : Nat) :
      m ∉ '\\' :: letter :: hexPadded width c.toNat := by
    rw [List.mem_cons, List.mem_cons, not_or, not_or]
    exact ⟨h.ne (by decide) (by decide), h.ne hcolon hbang, h.not_mem_hexPadded width _⟩
  unfold pointEscape
  split
  · exact hescape 'x' (by decide) (by decide) 2
  · split
    · exact hescape 'u' (by decide) (by decide) 4
    · exact hescape 'U' (by decide) (by decide) 8

theorem IsMark.not_mem_escaped (h : IsMark m) {quote c : Char} (hne : m ≠ c) :
    m ∉ escaped quote c := by
  have hpair {letter : Char} (hletter : m ≠ letter) : m ∉ ['\\', letter] := by
    rw [List.mem_cons, List.mem_singleton, not_or]
    exact ⟨h.ne (by decide) (by decide), hletter⟩
  unfold escaped
  split
  · exact hpair hne
  · split
    · exact hpair (h.ne (by decide) (by decide))
    · split
      · exact hpair (h.ne (by decide) (by decide))
      · split
        · exact hpair (h.ne (by decide) (by decide))
        · split
          · exact fun hmem => hne (List.mem_singleton.mp hmem)
          · exact h.not_mem_pointEscape c

/-- Quoting does not bring in a mark. -/
theorem IsMark.not_mem_quoted (h : IsMark m) {s : String} (hs : m ∉ s.toList) :
    m ∉ (quoted s).toList := by
  have hquote : m ≠ quoteOf s.toList := by
    unfold quoteOf
    split
    · exact h.ne (by decide) (by decide)
    · exact h.ne (by decide) (by decide)
  rw [quoted, String.toList_ofList, List.mem_append, List.mem_cons, List.mem_singleton,
    List.mem_flatMap, not_or, not_or]
  refine ⟨⟨hquote, ?_⟩, hquote⟩
  rintro ⟨c, hc, hmem⟩
  exact h.not_mem_escaped (fun heq => hs (heq ▸ hc)) hmem

/-- Nor does writing in ASCII alone. -/
theorem IsMark.not_mem_asciiOnly (h : IsMark m) {s : String} (hs : m ∉ s.toList) :
    m ∉ (asciiOnly s).toList := by
  rw [asciiOnly, String.toList_ofList, List.mem_flatMap]
  rintro ⟨c, hc, hmem⟩
  split at hmem
  · exact hs (List.mem_singleton.mp hmem ▸ hc)
  · exact h.not_mem_pointEscape c hmem

end Marks

/-! ## What comes of the key -/

namespace Field

variable {filling : Filling} {field : Field} {depth : Nat}

/-- What a field is filled with if nothing is under its key, before it is presented. -/
def content (field : Field) : String :=
  match field.conversion with
  | none | some .plain => String.ofList (braced field.key)
  | some .shown => quoted (String.ofList (braced field.key))
  | some .ascii => asciiOnly (quoted (String.ofList (braced field.key)))

/-- Whether a field under whose key there is nothing becomes a text: the gaps of its presentation
are filled, and what that makes of it is a presentation of texts. -/
def Becomes (field : Field) (filling : Filling) (text : String) : Prop :=
  IsReadableKey field.key ∧
    ∃ spec layout, fillWithin filling 1 (field.spec.getD []) = .ok spec ∧
      WritesLayout spec.toList layout ∧ text = String.ofList (layout.applied field.content.toList)

/-- A presentation without gaps is filled to itself. -/
theorem spec_eq (field : Field) :
    (if field.gap.nested then String.toList <$> fillWithin filling (depth + 1) field.gap.spec
      else .ok field.gap.spec)
      = String.toList <$> fillWithin filling (depth + 1) (field.spec.getD []) := by
  by_cases hnested : field.gap.nested = true
  · rw [if_pos hnested]
    rfl
  · rw [if_neg hnested]
    have hopen : '\x7b' ∉ field.spec.getD [] := by simpa [gap] using hnested
    have hclose : '\x7d' ∉ field.spec.getD [] := by
      cases hspec : field.spec with
      | none => exact List.not_mem_nil
      | some spec =>
        rw [hspec] at hopen
        exact (field.balanced spec hspec).close_not_mem hopen
    rw [fillWithin_braceless hopen hclose]
    exact congrArg Except.ok String.toList_ofList.symm

/-- A field is filled with what is found, converted, under its presentation. -/
theorem fillGap_eq (field : Field) :
    fillGap filling (depth + 1) field.gap = (do
      let found ← convert field.gap.conversion (← lookUp filling field.key)
      let spec ← String.toList <$> fillWithin filling (depth + 1) (field.spec.getD [])
      found.present spec) := by
  rw [fillGap, ← spec_eq, show field.gap.field = field.key from rfl]
  cases lookUp filling field.key with
  | error f => rfl
  | ok under =>
    show (convert field.gap.conversion under >>= _) = (convert field.gap.conversion under >>= _)
    cases convert field.gap.conversion under with
    | error f => rfl
    | ok found => cases field.gap.nested <;> rfl

theorem convert_leftover (field : Field) :
    convert field.gap.conversion (.datum (.string (String.ofList (braced field.key))))
      = .ok (.datum (.string field.content)) := by
  unfold content gap
  cases field.conversion with
  | none => rfl
  | some conversion => cases conversion <;> rfl

/-- **What comes of a field that nothing fills.** -/
theorem fillGap_eq_ok_iff
    (h : filling (String.ofList field.key) = .string (String.ofList (braced field.key)))
    {text : String} : fillGap filling 1 field.gap = .ok text ↔ field.Becomes filling text := by
  rw [fillGap_eq, lookUp_key field.isKey, h]
  by_cases hreadable : IsReadableKey field.key
  · rw [if_pos hreadable]
    show (do
      let found ← convert field.gap.conversion (.datum (.string (String.ofList (braced field.key))))
      let spec ← String.toList <$> fillWithin filling 1 (field.spec.getD [])
      found.present spec) = _ ↔ _
    rw [convert_leftover]
    show (do
      let spec ← String.toList <$> fillWithin filling 1 (field.spec.getD [])
      present (.string field.content) spec) = _ ↔ _
    cases hspec : fillWithin filling 1 (field.spec.getD []) with
    | error f =>
      refine iff_of_false nofun ?_
      rintro ⟨-, spec, -, hfill, -⟩
      rw [hspec] at hfill
      cases hfill
    | ok spec =>
      show present (.string field.content) spec.toList = .ok text ↔ _
      rw [present_string, presentAsText_eq_ok_iff]
      constructor
      · rintro ⟨layout, hwrites, htext⟩
        exact ⟨hreadable, spec, layout, hspec, hwrites, htext⟩
      · rintro ⟨-, spec', layout, hfill, hwrites, htext⟩
        rw [hspec] at hfill
        cases hfill
        exact ⟨layout, hwrites, htext⟩
  · rw [if_neg hreadable]
    exact iff_of_false nofun fun hbecomes => hreadable hbecomes.1

/-! ## What is written -/

/-- Whether a field has a conversion or a presentation. -/
def IsMarked (field : Field) : Prop := field.conversion ≠ none ∨ field.spec ≠ none

theorem not_isMarked : ¬ field.IsMarked ↔ field.conversion = none ∧ field.spec = none := by
  rw [IsMarked, not_or, not_not, not_not]

theorem content_of_not_isMarked (h : ¬ field.IsMarked) :
    field.content = String.ofList field.written := by
  obtain ⟨hconversion, hspec⟩ := not_isMarked.mp h
  rw [content, hconversion, written, writtenConversion, writtenSpec, hconversion, hspec]
  rfl

theorem exists_mark (h : field.IsMarked) : ∃ m body, IsMark m ∧ m ∈ body ∧
    field.written = '\x7b' :: (body ++ ['\x7d']) := by
  have hwritten : field.written = '\x7b' ::
      ((field.key ++ (field.writtenConversion ++ field.writtenSpec)) ++ ['\x7d']) := by
    rw [written, List.append_assoc, List.append_assoc]
  rcases h with h | h
  · obtain ⟨conversion, hconversion⟩ := Option.ne_none_iff_exists'.mp h
    refine ⟨'!', _, Or.inr rfl, ?_, hwritten⟩
    rw [writtenConversion, hconversion]
    simp
  · obtain ⟨spec, hspec⟩ := Option.ne_none_iff_exists'.mp h
    refine ⟨':', _, Or.inl rfl, ?_, hwritten⟩
    rw [writtenSpec, hspec]
    simp

/-- What a field is filled with has no mark, for the key has none. -/
theorem mark_not_mem_content (field : Field) {m : Char} (h : IsMark m) :
    m ∉ field.content.toList := by
  have hkey : m ∉ field.key := fun hmem => by
    have hnot := field.isKey.unmarked m hmem
    rw [h.endsKey] at hnot
    cases hnot
  have hbraced : m ∉ (String.ofList (braced field.key)).toList := by
    rw [String.toList_ofList, braced, List.mem_cons, List.mem_append, List.mem_singleton]
    rintro (hopen | hmem | hclose)
    · exact h.ne (by decide) (by decide) hopen
    · exact hkey hmem
    · exact h.ne (by decide) (by decide) hclose
  unfold content
  split
  · exact hbraced
  · exact hbraced
  · exact h.not_mem_quoted hbraced
  · exact h.not_mem_asciiOnly (h.not_mem_quoted hbraced)

end Field

section Written

variable {w : Terminal} {layout : Layout} {cs : List Char} {m : Char}

theorem Layout.mem_of_mem_kept (h : m ∈ layout.kept cs) : m ∈ cs := by
  unfold kept at h
  split at h
  · exact List.mem_of_mem_take h
  · exact h

theorem IsMark.printed (h : IsMark m) : 32 ≤ m.toNat := by
  rcases h with rfl | rfl <;> decide

/-- What is not in a text is in what the text is presented as only where that is filled up with it,
and then it comes first or last. -/
theorem Layout.mem_applied (hcs : m ∉ cs) (hmem : m ∈ layout.applied cs) :
    ∃ others, layout.applied cs = [m] ++ others ∨ layout.applied cs = others ++ [m] := by
  unfold Layout.applied at hmem ⊢
  rcases List.mem_append.mp hmem with hbefore | hrest
  · obtain ⟨hcount, hfill⟩ := List.mem_replicate.mp hbefore
    obtain ⟨n, hn⟩ := Nat.exists_eq_succ_of_ne_zero hcount
    rw [hn, List.replicate_succ, ← hfill]
    exact ⟨_, Or.inl rfl⟩
  · rcases List.mem_append.mp hrest with hkept | hafter
    · exact absurd (Layout.mem_of_mem_kept hkept) hcs
    · obtain ⟨hcount, hfill⟩ := List.mem_replicate.mp hafter
      obtain ⟨n, hn⟩ := Nat.exists_eq_succ_of_ne_zero hcount
      rw [hn, List.replicate_succ', ← hfill, ← List.append_assoc, ← List.append_assoc]
      exact ⟨_, Or.inr rfl⟩

/-- What is written between braces with a mark in it is not what a text without the mark is
presented as. -/
theorem IsMark.clean_applied_ne (h : IsMark m) (hcs : m ∉ cs) {body : List Char}
    (hbody : m ∈ body) :
    w.clean (layout.applied cs) ≠ w.clean ('\x7b' :: (body ++ ['\x7d'])) := by
  intro heq
  have hwritten :
      w.clean ('\x7b' :: (body ++ ['\x7d'])) = '\x7b' :: (w.clean body ++ ['\x7d']) := by
    rw [← List.singleton_append, Terminal.clean_append, Terminal.clean_append,
      Terminal.clean_singleton (by decide), Terminal.clean_singleton (by decide),
      List.singleton_append]
  have hmem : m ∈ w.clean (layout.applied cs) := by
    rw [heq, hwritten]
    exact List.mem_cons_of_mem _
      (List.mem_append_left _ ((Terminal.mem_clean_iff h.printed).mpr hbody))
  rw [hwritten] at heq
  obtain ⟨others, hfirst | hlast⟩ := Layout.mem_applied hcs (List.mem_filter.mp hmem).1
  · rw [hfirst, Terminal.clean_append, Terminal.clean_singleton h.printed] at heq
    exact h.ne (by decide) (by decide) (List.cons.inj heq).1
  · rw [hlast, Terminal.clean_append, Terminal.clean_singleton h.printed,
      ← List.cons_append] at heq
    exact h.ne (by decide) (by decide) (List.cons.inj (List.append_inj_right' heq rfl)).1

end Written

namespace Field.Becomes

variable {filling : Filling} {field : Field} {text : String}

/-- **With a conversion or a presentation, a field that nothing fills is not left as it is.** -/
theorem cleaned_ne (w : Terminal) (h : field.Becomes filling text) (hmarked : field.IsMarked) :
    w.cleaned text ≠ w.cleaned (String.ofList field.written) := by
  obtain ⟨-, spec, layout, -, -, rfl⟩ := h
  obtain ⟨m, body, hm, hbody, hwritten⟩ := exists_mark hmarked
  intro heq
  have hlist := String.ofList_injective heq
  rw [String.toList_ofList, String.toList_ofList, hwritten] at hlist
  exact hm.clean_applied_ne (field.mark_not_mem_content hm) hbody hlist

end Field.Becomes

theorem Field.becomes_written (filling : Filling) {field : Field} (hplain : ¬ field.IsMarked)
    (hreadable : IsReadableKey field.key) :
    field.Becomes filling (String.ofList field.written) := by
  refine ⟨hreadable, "", Layout.plain, ?_, writesLayout_nil, ?_⟩
  · rw [(not_isMarked.mp hplain).2]
    exact fillWithin_nil
  · rw [← content_of_not_isMarked hplain]
    exact Layout.plain_applied _

/-! ## Messages -/

namespace Book

variable {book : Book} {house : House} {main : List (Datum × Datum)} {style : String} {r : Report}
  {field : Field} {before after : List Char}

/-- Nothing fills a key that is neither that of the id nor one of the context. -/
theorem filling_missing {key : List Char} (hid : String.ofList key ≠ idKey)
    (hmissing : r.context.get? (String.ofList key) = none) :
    filling r (String.ofList key) = .string (String.ofList (braced key)) := by
  rw [filling, if_neg hid, hmissing, ← bracedText_eq]

/-- A message with a field is filled part by part. -/
theorem fillIn_field_eq_ok_iff (r : Report) (field : Field) (hbefore : (pieces before).2 = none)
    (after : List Char)
    (hid : String.ofList field.key ≠ idKey)
    (hmissing : r.context.get? (String.ofList field.key) = none) {whole : String} :
    fillIn (filling r) (String.ofList (before ++ (field.written ++ after))) = .ok whole ↔
      ∃ lead text tail, fillIn (filling r) (String.ofList before) = .ok lead ∧
        field.Becomes (filling r) text ∧
        fillIn (filling r) (String.ofList after) = .ok tail ∧ whole = lead ++ text ++ tail := by
  simp only [fillIn, String.toList_ofList]
  rw [fillWithin_append_eq_ok_iff hbefore]
  simp only [fillWithin_append_eq_ok_iff (congrArg Prod.snd field.pieces_alone),
    field.fillWithin_written, Field.fillGap_eq_ok_iff (filling_missing hid hmissing)]
  constructor
  · rintro ⟨lead, rest, hlead, ⟨text, tail, htext, htail, rfl⟩, rfl⟩
    exact ⟨lead, text, tail, hlead, htext, htail, (String.append_assoc ..).symm⟩
  · rintro ⟨lead, text, tail, hlead, htext, htail, rfl⟩
    exact ⟨lead, text ++ tail, hlead, ⟨text, tail, htext, htail, rfl⟩, String.append_assoc ..⟩

theorem plain_ofText (w : Terminal) (s style : String) :
    (Styled.ofText w s style).plain = w.cleaned s := rfl

/--
**A field that nothing fills.** Let the message that is chosen for a report consist of a template
without a mistake, a field whose key is neither that of the id nor one of the context, and what
follows it. It is rendered exactly if what stands before and behind the field can be filled, and the
field becomes a text: the number in front of its key can be read, and its presentation, with its own
gaps filled, is one for texts. In its place stands the key in its braces, converted and presented as
the field says. So the message reads with the field as it is written exactly if the field has
neither a conversion nor a presentation and no fault comes of the rest.
-/
theorem render_leftover_iff (w : Terminal) (book : Book) (house : House) (r : Report)
    (field : Field) (hmain : House.entriesOf house.messages = .ok main)
    (hstyle : house.style = .ok style) (hbefore : (pieces before).2 = none)
    (hchosen : book.chosen main r.id
      = .string (String.ofList (before ++ (field.written ++ after))))
    (hid : String.ofList field.key ≠ idKey)
    (hmissing : r.context.get? (String.ofList field.key) = none) :
    (∀ t, book.render w house r = .ok t ↔
      ∃ lead text tail, fillIn (filling r) (String.ofList before) = .ok lead ∧
        field.Becomes (filling r) text ∧ fillIn (filling r) (String.ofList after) = .ok tail ∧
        t = Styled.ofText w (lead ++ text ++ tail) (if book.colorful then style else "")) ∧
    ((∃ t lead tail, book.render w house r = .ok t ∧
        fillIn (filling r) (String.ofList before) = .ok lead ∧
        fillIn (filling r) (String.ofList after) = .ok tail ∧
        t.plain = w.cleaned lead ++ w.cleaned (String.ofList field.written) ++ w.cleaned tail) ↔
      ¬ field.IsMarked ∧ IsReadableKey field.key ∧
        (∃ lead, fillIn (filling r) (String.ofList before) = .ok lead) ∧
        ∃ tail, fillIn (filling r) (String.ofList after) = .ok tail) := by
  have hrender (t : Styled) : book.render w house r = .ok t ↔
      ∃ lead text tail, fillIn (filling r) (String.ofList before) = .ok lead ∧
        field.Becomes (filling r) text ∧ fillIn (filling r) (String.ofList after) = .ok tail ∧
        t = Styled.ofText w (lead ++ text ++ tail) (if book.colorful then style else "") := by
    rw [render_eq hmain hstyle hchosen]
    constructor
    · intro h
      obtain ⟨whole, hwhole, ht⟩ := exists_of_bind_eq_ok h
      obtain ⟨lead, text, tail, hlead, htext, htail, rfl⟩ :=
        (fillIn_field_eq_ok_iff r field hbefore after hid hmissing).mp hwhole
      exact ⟨lead, text, tail, hlead, htext, htail, (Except.ok.inj ht).symm⟩
    · rintro ⟨lead, text, tail, hlead, htext, htail, rfl⟩
      rw [(fillIn_field_eq_ok_iff r field hbefore after hid hmissing).mpr
        ⟨lead, text, tail, hlead, htext, htail, rfl⟩]
      rfl
  refine ⟨hrender, ?_, ?_⟩
  · rintro ⟨t, lead, tail, ht, hlead, htail, hplain⟩
    obtain ⟨lead', text, tail', hlead', htext, htail', rfl⟩ := (hrender t).mp ht
    cases hlead.symm.trans hlead'
    cases htail.symm.trans htail'
    refine ⟨fun hmarked => htext.cleaned_ne w hmarked ?_, htext.1, ⟨lead, hlead⟩, ⟨tail, htail⟩⟩
    rw [plain_ofText, Terminal.cleaned_append, Terminal.cleaned_append, String.append_left_inj,
      String.append_right_inj] at hplain
    exact hplain
  · rintro ⟨hplain, hreadable, ⟨lead, hlead⟩, ⟨tail, htail⟩⟩
    have htext := Field.becomes_written (filling r) hplain hreadable
    refine ⟨_, lead, tail, (hrender _).mpr ⟨lead, _, tail, hlead, htext, htail, rfl⟩, hlead, htail,
      ?_⟩
    rw [plain_ofText, Terminal.cleaned_append, Terminal.cleaned_append]

/-- A field whose key is `limit`, and whose presentation has no gaps. -/
def Field.limit (conversion : Option Conversion) (spec : Option (List Char))
    (hopen : '\x7b' ∉ spec.getD []) (hclose : '\x7d' ∉ spec.getD []) : Field where
  key := "limit".toList
  conversion := conversion
  spec := spec
  isKey := isKey_of_word (by decide) (by decide)
  balanced := by
    rintro cs hcs
    cases hcs
    exact isBalanced_of_not_mem hopen hclose

/-- A limit that nothing is known of is quoted and moved to the right. -/
theorem render_leftover_iff_limit :
    ∃ t, (⟨[(.string "x", .string "<\x7blimit!r:>12\x7d>")], usualFallback, true⟩ : Book).render
        .usual .plain ⟨"x", .empty, none⟩ = .ok t ∧ t.plain = "<   '\x7blimit\x7d'>" := by
  have hbefore : pieces ['<'] = ([.char '<'], none) := by
    rw [pieces_char (by decide) (by decide), pieces]
  have hwrites : WritesLayout ">12".toList ⟨' ', .right, 12, none⟩ :=
    ⟨['>'], none, some .right, ['1', '2'], [1, 2], [], [], rfl, .side rfl, rfl, .none, Or.inl rfl,
      rfl, rfl, by decide, rfl, by decide⟩
  have hbecomes : (Field.limit (some .shown) (some ">12".toList) (by decide) (by decide)).Becomes
      (filling ⟨"x", .empty, none⟩) _ :=
    ⟨by decide, ">12", _, fillWithin_braceless (by decide) (by decide), hwrites, rfl⟩
  have hrender := (@render_leftover_iff _ _ _ ['>'] .usual
    ⟨[(.string "x", .string _)], usualFallback, true⟩ .plain ⟨"x", .empty, none⟩
    (Field.limit (some .shown) (some ">12".toList) (by decide) (by decide)) rfl rfl
    (congrArg Prod.snd hbefore) rfl (by decide) rfl).1
  exact ⟨_, (hrender _).mpr ⟨"<", _, ">", fillWithin_braceless (by decide) (by decide), hbecomes,
    fillWithin_braceless (by decide) (by decide), rfl⟩, by decide +kernel⟩

/-- A limit that nothing is known of is not left as it is with a conversion, and with a presentation
for numbers there is no message. -/
theorem marked_limit_is_not_left :
    (∃ t, (⟨[(.string "x", .string "\x7blimit!r\x7d")], usualFallback, true⟩ : Book).render .usual
        .plain ⟨"x", .empty, none⟩ = .ok t ∧ t.plain = "'\x7blimit\x7d'") ∧
      ∀ t, (⟨[(.string "x", .string "\x7blimit:d\x7d")], usualFallback, true⟩ : Book).render .usual
        .plain ⟨"x", .empty, none⟩ ≠ .ok t := by
  have hnil : (pieces []).2 = none := by rw [pieces]
  constructor
  · have hfill := (fillIn_field_eq_ok_iff ⟨"x", .empty, none⟩
      (Field.limit (some .shown) none (by decide) (by decide)) hnil [] (by decide) rfl).mpr
        ⟨"", _, "", fillWithin_nil,
          ⟨by decide, "", Layout.plain, fillWithin_nil, writesLayout_nil, rfl⟩, fillWithin_nil, rfl⟩
    have hrender :
        Book.render .usual ⟨[(.string "x", .string "\x7blimit!r\x7d")], usualFallback, true⟩ .plain
          ⟨"x", .empty, none⟩ = _ :=
      render_eq rfl rfl rfl
    exact ⟨_, hrender.trans (congrArg (· >>= _) hfill), by decide +kernel⟩
  · intro t ht
    rw [show Book.render .usual _ .plain ⟨"x", .empty, none⟩ = _ from render_eq rfl rfl rfl] at ht
    obtain ⟨whole, hwhole, -⟩ := exists_of_bind_eq_ok ht
    obtain ⟨-, text, -, -, ⟨-, spec, layout, hspec, hwrites, -⟩, -⟩ :=
      (fillIn_field_eq_ok_iff _ (Field.limit none (some ['d']) (by decide) (by decide)) hnil []
        (by decide) rfl).mp hwhole
    cases hspec.symm.trans (fillWithin_braceless (by decide) (by decide))
    -- a text is refused in the notation of integers
    have hrefused : presentAsText "str" "" ['d'] = .ok _ :=
      presentAsText_eq_ok_iff.mpr ⟨layout, hwrites, rfl⟩
    cases hrefused

end Book

end CommandTree.Message
