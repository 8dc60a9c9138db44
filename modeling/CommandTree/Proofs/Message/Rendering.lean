import CommandTree.Message.Book
import CommandTree.Proofs.Message.Filling

/-!
# Rendering messages

A message is rendered in one pass. Of a template that consists of text, of pairs of braces and of
keys in braces, the text stays as it is, each pair becomes one brace, and each key is replaced by
what the report says: by its id, by the plain text of what its context has under the key, or, where
it has nothing, by the key in its braces. What is put in is not read again, so braces in it are
braces. This goes well unless a number stands in the way: one that a key begins with and that is too
large to be read, or one in the context that has too many digits to be written.

* `Book.template_eq`: which message is chosen
* `Part.fillWithin_written`, `Part.exists_fault`: what comes of each part
* `Book.render_parts_iff`: what comes of a message
-/

namespace CommandTree.Message

open Text

/-! ## Parts of templates -/

/-- A part of a template: a character that stands for itself, two braces that stand for one, or a
key in braces. -/
inductive Part where
  | char (c : Char) (notOpening : c ≠ '\x7b') (notClosing : c ≠ '\x7d')
  | opening
  | closing
  | named (key : List Char) (isKey : IsKey key)

/-- A key in its braces. -/
def braced (key : List Char) : List Char := '\x7b' :: (key ++ ['\x7d'])

/-- A key that is in braces by itself. -/
def Field.bare (key : List Char) (isKey : IsKey key) : Field where
  key := key
  conversion := none
  spec := none
  isKey := isKey
  balanced := nofun

/-- The text that a report has for a key. -/
def shownUnder (r : Report) (key : List Char) : String :=
  if String.ofList key = idKey then r.id
  else match r.context.get? (String.ofList key) with
    | some d => d.plain
    | none => String.ofList (braced key)

namespace Part

/-- A part as it is written in a template. -/
def written : Part → List Char
  | .char c _ _ => [c]
  | .opening => ['\x7b', '\x7b']
  | .closing => ['\x7d', '\x7d']
  | .named key _ => braced key

/-- The piece that a part is. -/
def piece : Part → Piece
  | .char c _ _ => .char c
  | .opening => .char '\x7b'
  | .closing => .char '\x7d'
  | .named key isKey => .gap (Field.bare key isKey).gap

/-- The text that a part stands for in the message of a report. -/
def shown (r : Report) : Part → String
  | .char c _ _ => String.singleton c
  | .opening => "\x7b"
  | .closing => "\x7d"
  | .named key _ => shownUnder r key

/-- Whether no number stands in the way of a part. -/
def IsFilled (r : Report) : Part → Prop
  | .named key _ => IsReadableKey key ∧ (String.ofList key ≠ idKey →
      ∀ d, r.context.get? (String.ofList key) = some d → d.isWritable = true)
  | _ => True

end Part

/-! ## Filling parts -/

variable {depth : Nat} {r : Report}

theorem fillGap_bare {filling : Filling} {key : List Char} (h : IsKey key) :
    fillGap filling depth (Field.bare key h).gap
      = if IsReadableKey key then do .ok (← (filling (String.ofList key)).asWritable).plain
        else .error (.template .tooManyDigits) := by
  rw [fillGap]
  dsimp only [Field.gap, Field.bare, Option.map_none, Option.getD_none]
  rw [lookUp_key h]
  split
  · rfl
  · rfl

theorem bracedText_eq (key : List Char) :
    "\x7b" ++ String.ofList key ++ "\x7d" = String.ofList (braced key) := by
  rw [braced, String.ofList_cons, String.ofList_append, ← String.append_assoc]
  rfl

/-- What fills a gap for a key is written as what the report has for it. -/
theorem plain_filling (r : Report) (key : List Char) :
    (Book.filling r (String.ofList key)).plain = shownUnder r key := by
  unfold Book.filling shownUnder
  split
  · rfl
  · cases r.context.get? (String.ofList key) with
    | some d => rfl
    | none => exact bracedText_eq key

theorem isWritable_filling {key : List Char} :
    (Book.filling r (String.ofList key)).isWritable = true ↔ (String.ofList key ≠ idKey →
      ∀ d, r.context.get? (String.ofList key) = some d → d.isWritable = true) := by
  unfold Book.filling
  split
  · next hid => exact iff_of_true rfl fun hne => absurd hid hne
  · next hid =>
    split
    · next d hget =>
      rw [hget]
      exact ⟨fun hd _ _ heq => Option.some.inj heq ▸ hd, fun hall => hall hid d rfl⟩
    · next hget =>
      rw [hget]
      exact iff_of_true rfl fun _ _ => nofun

namespace Part

/-- A part is read as the piece that it is. -/
theorem pieces_written (part : Part) : pieces part.written = ([part.piece], none) := by
  cases part with
  | char c hopen hclose => rw [written, pieces_char hopen hclose, pieces, piece]
  | opening => rw [written, pieces_opening, pieces, piece]
  | closing => rw [written, pieces_closing, pieces, piece]
  | named key isKey => exact (Field.bare key isKey).pieces_alone

/-- A part that no number stands in the way of becomes the text that it stands for. -/
theorem fillWithin_written {part : Part} (h : part.IsFilled r) :
    fillWithin (Book.filling r) (depth + 1) part.written = .ok (part.shown r) := by
  rw [fillWithin_of_pieces part.pieces_written]
  cases part with
  | char c hopen hclose => rfl
  | opening => rfl
  | closing => rfl
  | named key isKey =>
    rw [piece, fillPiece, fillGap_bare, if_pos h.1, Datum.asWritable,
      if_pos (isWritable_filling.mpr h.2)]
    exact congrArg Except.ok (plain_filling r key)

/-- A part that a number stands in the way of cannot be filled. -/
theorem exists_fault {part : Part} (h : ¬ part.IsFilled r) :
    ∃ f, fillWithin (Book.filling r) (depth + 1) part.written = .error f ∧ f.kind = .value := by
  rw [fillWithin_of_pieces part.pieces_written]
  cases part with
  | char c hopen hclose => exact absurd trivial h
  | opening => exact absurd trivial h
  | closing => exact absurd trivial h
  | named key isKey =>
    rw [piece, fillPiece, fillGap_bare]
    by_cases hreadable : IsReadableKey key
    · have hwritable : ¬ (Book.filling r (String.ofList key)).isWritable = true :=
        fun hw => h ⟨hreadable, isWritable_filling.mp hw⟩
      rw [if_pos hreadable, Datum.asWritable, if_neg hwritable]
      exact ⟨_, rfl, rfl⟩
    · rw [if_neg hreadable]
      exact ⟨_, rfl, rfl⟩

end Part

/-! ## Filling templates -/

theorem fillWithin_parts {parts : List Part} (h : ∀ part ∈ parts, part.IsFilled r) :
    fillWithin (Book.filling r) (depth + 1) (parts.flatMap Part.written)
      = .ok (String.join (parts.map (Part.shown r))) := by
  induction parts with
  | nil => exact fillWithin_nil
  | cons part parts ih =>
    obtain ⟨hpart, hparts⟩ := List.forall_mem_cons.mp h
    rw [List.flatMap_cons, List.map_cons, String.join_cons,
      fillWithin_append_eq_ok_iff (congrArg Prod.snd part.pieces_written)]
    exact ⟨_, _, Part.fillWithin_written hpart, ih hparts, rfl⟩

theorem exists_fault_of_parts (depth : Nat) {parts : List Part}
    (h : ∃ part ∈ parts, ¬ part.IsFilled r) :
    ∃ f, fillWithin (Book.filling r) (depth + 1) (parts.flatMap Part.written) = .error f ∧
      f.kind = .value := by
  induction parts with
  | nil =>
    obtain ⟨part, hmem, -⟩ := h
    cases hmem
  | cons part parts ih =>
    rw [List.flatMap_cons, fillWithin_append (congrArg Prod.snd part.pieces_written)]
    by_cases hpart : part.IsFilled r
    · have hrest : ∃ part ∈ parts, ¬ part.IsFilled r := by
        obtain ⟨other, hmem, hnot⟩ := h
        rcases List.mem_cons.mp hmem with rfl | hmem
        · exact absurd hpart hnot
        · exact ⟨other, hmem, hnot⟩
      obtain ⟨f, hf, hkind⟩ := ih hrest
      rw [Part.fillWithin_written hpart, hf]
      exact ⟨f, rfl, hkind⟩
    · obtain ⟨f, hf, hkind⟩ := Part.exists_fault hpart
      rw [hf]
      exact ⟨f, rfl, hkind⟩

/-! ## Messages -/

namespace Book

variable {book : Book} {house : House} {main : List (Datum × Datum)} {style : String}

/-- The message for reports of an id: that of the book itself, else that of the main program, else
the usual one, else the one for all others. -/
def chosen (book : Book) (main : List (Datum × Datum)) (id : String) : Datum :=
  ((Datum.lookup book.messages id).or
    ((Datum.lookup main id).or ((usualMessages.lookup id).map .string))).getD
      (.string book.fallback)

theorem template_eq (h : House.entriesOf house.messages = .ok main) (id : String) :
    book.template house id = .ok (book.chosen main id) := by
  rw [Book.template, h, chosen]
  show (match Datum.lookup book.messages id with
    | some message => Except.ok message
    | none => _) = _
  cases Datum.lookup book.messages id with
  | some message => rfl
  | none =>
    cases Datum.lookup main id with
    | some message => rfl
    | none =>
      cases usualMessages.lookup id with
      | some message => rfl
      | none => rfl

/-- A message that is a text is rendered by filling it. -/
theorem render_eq {w : Terminal} {template : String}
    (hmain : House.entriesOf house.messages = .ok main) (hstyle : house.style = .ok style)
    (hchosen : book.chosen main r.id = .string template) :
    book.render w house r = (do
      let text ← fillIn (filling r) template
      .ok (Styled.ofText w text (if book.colorful then style else ""))) := by
  rw [render, hstyle, template_eq hmain, hchosen]
  rfl

/--
**A message is rendered in one pass.** Let the message that is chosen for a report consist of
characters other than braces, of pairs of braces, and of keys in braces. It is rendered as these
parts read one after the other, but for what the terminal leaves out, exactly if no number stands in
the way: a character reads as itself, a pair of braces as one brace, the key of the id as the id of
the report, another key as the plain text of what the context has under it, and a key that the
context does not have as it is written. Otherwise the message cannot be rendered.
-/
theorem render_parts_iff (w : Terminal) (book : Book) (house : House) (r : Report)
    (hmain : House.entriesOf house.messages = .ok main)
    (hstyle : house.style = .ok style) (parts : List Part)
    (hchosen : book.chosen main r.id = .string (String.ofList (parts.flatMap Part.written))) :
    ((∃ t, book.render w house r = .ok t ∧
        t.plain = w.cleaned (String.join (parts.map (Part.shown r)))) ↔
      ∀ part ∈ parts, part.IsFilled r) ∧
    ((∃ part ∈ parts, ¬ part.IsFilled r) →
      ∃ f, book.render w house r = .error f ∧ f.kind = .value) := by
  have hfault (h : ∃ part ∈ parts, ¬ part.IsFilled r) :
      ∃ f, book.render w house r = .error f ∧ f.kind = .value := by
    obtain ⟨f, hf, hkind⟩ := exists_fault_of_parts 1 h
    rw [render_eq hmain hstyle hchosen, fillIn, String.toList_ofList, hf]
    exact ⟨f, rfl, hkind⟩
  refine ⟨⟨?_, ?_⟩, hfault⟩
  · rintro ⟨t, ht, -⟩ part hmem
    by_contra hnot
    obtain ⟨f, hf, -⟩ := hfault ⟨part, hmem, hnot⟩
    rw [ht] at hf
    cases hf
  · intro hall
    rw [render_eq hmain hstyle hchosen, fillIn, String.toList_ofList, fillWithin_parts hall]
    exact ⟨_, rfl, rfl⟩

/-- A message of the main program with each kind of part; what is put in keeps its braces. -/
theorem render_parts_iff_hello :
    ∃ t, (⟨[], usualFallback, true⟩ : Book).render .usual
        ⟨some (.dict [(.string "hello",
          .string "<\x7b\x7b\x7bwho\x7d\x7d\x7d \x7berror_id\x7d \x7bx-1\x7d")]), none⟩
        ⟨"hello", .ofList [("who", .string "\x7bx-1\x7d"), ("error_id", .null)], none⟩ = .ok t ∧
      t.plain = "<\x7b\x7bx-1\x7d\x7d hello \x7bx-1\x7d" := by
  have hrender := render_parts_iff .usual ⟨[], usualFallback, true⟩
    ⟨some (.dict [(.string "hello", .string _)]), none⟩
    ⟨"hello", .ofList [("who", .string "\x7bx-1\x7d"), ("error_id", .null)], none⟩ rfl rfl
    [.char '<' (by decide) (by decide), .opening,
      .named "who".toList (isKey_of_word (by decide) (by decide)), .closing,
      .char ' ' (by decide) (by decide),
      .named "error_id".toList (isKey_of_word (by decide) (by decide)),
      .char ' ' (by decide) (by decide),
      .named "x-1".toList (isKey_of_word (by decide) (by decide))]
    rfl
  obtain ⟨t, ht, hplain⟩ := hrender.1.mpr (by
    simp only [List.forall_mem_cons]
    refine ⟨trivial, trivial, ⟨by decide, ?_⟩, trivial, trivial, ⟨by decide, nofun⟩, trivial,
      ⟨by decide, nofun⟩, nofun⟩
    rintro - d hd
    cases hd
    rfl)
  exact ⟨t, ht, hplain.trans (by decide +kernel)⟩

/-- A key that begins with too large a number is not left as it is. -/
theorem numbered_key_is_not_rendered :
    IsKey "99999999999999999999a".toList ∧
      ∀ t, (⟨[(.string "x", .string "\x7b99999999999999999999a\x7d")], usualFallback, true⟩ :
        Book).render .usual .plain ⟨"x", .empty, none⟩ ≠ .ok t := by
  have hkey : IsKey "99999999999999999999a".toList := isKey_of_word (by decide) (by decide)
  refine ⟨hkey, fun t ht => ?_⟩
  have hnot : ∃ part ∈ [Part.named _ hkey], ¬ part.IsFilled ⟨"x", .empty, none⟩ :=
    ⟨_, List.mem_singleton_self _, fun h => absurd h.1 (by decide)⟩
  obtain ⟨f, hf, -⟩ := exists_fault_of_parts 1 hnot
  rw [show Book.render .usual _ .plain ⟨"x", .empty, none⟩ = _ from render_eq rfl rfl rfl,
    fillIn] at ht
  obtain ⟨text, htext, -⟩ := exists_of_bind_eq_ok ht
  cases htext.symm.trans hf

end Book

end CommandTree.Message
