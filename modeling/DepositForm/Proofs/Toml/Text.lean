import DepositForm.Toml.Text
import DepositForm.Toml.Write

/-! # Texts are read as they were written

A text is written in one of four forms, and each is read back by a reader of its own. Every reader
keeps the characters found so far, last one first, so the statements say how the characters of a
text go over to what has been found.

A character in a basic text is itself, or stands behind a backslash with a letter or with four
digits (`escaped_cases`); both readers of basic texts undo all three.

On several lines a quote is just a quote, unless it is the first of three. So the readers are
followed with the quotes that were met last still in front of them, at most two: a third one is not
written as it is. If another character comes next, these quotes are passed one by one; if the three
closing ones come next, the reader stops at the first three of all and takes the others for the
text (`ReadsQuotes`).
-/
namespace DepositForm.Toml

/-! ## Characters -/

theorem isPlain_of_not_control {c : Char} (h : isControl c = false) (hline : c ≠ '\n') :
    isPlain c = true := by
  simp [isControl, isPlain] at h ⊢
  by_cases htab : c = '\t'
  · exact .inl htab
  · have := h htab hline
    omega

theorem hexDigit?_toUpper_digitChar : ∀ d : Nat, d < 16 →
    Letter.hexDigit? (Nat.digitChar d).toUpper = some d := by
  decide

/-- The digits that are written for a control character stand for it. -/
theorem hexChar?_of_control {c : Char} (h : isControl c = true) :
    Letter.hexChar? ['0', '0', (Nat.digitChar (c.toNat / 16)).toUpper,
      (Nat.digitChar (c.toNat % 16)).toUpper] = some c := by
  have hcode : c.toNat < 128 := by
    simp [isControl] at h
    omega
  have hzero : Letter.hexDigit? '0' = some 0 := by decide
  have hhigh := hexDigit?_toUpper_digitChar (c.toNat / 16) (by omega)
  have hlow := hexDigit?_toUpper_digitChar (c.toNat % 16) (by omega)
  have hnumber : 16 * (16 * (16 * (16 * 0 + 0) + 0) + c.toNat / 16) + c.toNat % 16 = c.toNat := by
    omega
  have hvalid : c.toNat.isValidChar := c.valid
  simp only [Letter.hexChar?, Letter.hexNumber?, List.mapM_cons, List.mapM_nil, hzero, hhigh, hlow,
    Option.pure_def, Option.bind_eq_bind, Option.bind_some, List.foldl_cons, List.foldl_nil,
    hnumber, if_pos hvalid, Char.ofNat_toNat]

/-- How a character stands in a basic text: behind a backslash as a letter or as digits, or as it
is. A line end stands as it is on several lines only. -/
theorem escaped_cases (lines : Bool) (c : Char) :
    (∃ x, plainEscape? x = some c ∧ escaped lines c = ['\\', x]) ∨
    (∃ a b, Letter.hexChar? ['0', '0', a, b] = some c ∧
      escaped lines c = ['\\', 'u', '0', '0', a, b]) ∨
    (c ≠ '\\' ∧ (isPlain c = true ∨ lines = true ∧ c = '\n') ∧ escaped lines c = [c]) := by
  unfold escaped
  split
  · exact .inl ⟨'\\', rfl, rfl⟩
  · exact .inl ⟨'b', rfl, rfl⟩
  · exact .inl ⟨'t', rfl, rfl⟩
  · cases lines
    · exact .inl ⟨'n', rfl, rfl⟩
    · exact .inr (.inr ⟨by decide, .inr ⟨rfl, rfl⟩, rfl⟩)
  · exact .inl ⟨'f', rfl, rfl⟩
  · exact .inl ⟨'r', rfl, rfl⟩
  · rename_i hbackslash _ _ hline _ _
    split
    · rename_i hcontrol
      exact .inr (.inl ⟨_, _, hexChar?_of_control hcontrol, rfl⟩)
    · rename_i hcontrol
      have hplain := isPlain_of_not_control (by simpa using hcontrol) hline
      exact .inr (.inr ⟨hbackslash, .inl hplain, rfl⟩)

/-- No character but a quote is written with a quote in front. -/
theorem exists_escaped_eq_cons (lines : Bool) {c : Char} (h : c ≠ '"') :
    ∃ first more, first ≠ '"' ∧ escaped lines c = first :: more := by
  rcases escaped_cases lines c with ⟨x, -, heq⟩ | ⟨a, b, -, heq⟩ | ⟨-, -, heq⟩
  · exact ⟨_, _, by decide, heq⟩
  · exact ⟨_, _, by decide, heq⟩
  · exact ⟨_, _, h, heq⟩

/-! ## One line -/

theorem readBasic_escape {x c : Char} (h : plainEscape? x = some c) (found rest : List Char) :
    readBasic found ('\\' :: x :: rest) = readBasic (c :: found) rest := by
  have hshort : x ≠ 'u' := by
    rintro rfl
    cases h
  have hlong : x ≠ 'U' := by
    rintro rfl
    cases h
  rw [readBasic]
  · simp [h]
  · exact fun _ _ _ _ _ hx _ => hshort hx
  · exact fun _ _ _ _ _ _ _ _ _ hx _ => hlong hx

theorem readBasic_escaped {c : Char} (h : c ≠ '"') (found rest : List Char) :
    readBasic found (escaped false c ++ rest) = readBasic (c :: found) rest := by
  rcases escaped_cases false c with ⟨x, hx, heq⟩ | ⟨a, b, hab, heq⟩ | ⟨hbackslash, hplain, heq⟩
  · rw [heq]
    exact readBasic_escape hx found rest
  · rw [heq]
    simp [readBasic, hab]
  · have hplain : isPlain c = true := by simpa using hplain
    rw [heq, List.singleton_append, readBasic, if_pos hplain]
    all_goals simp [h, hbackslash]

/-- What is written in a basic text on one line is read as the characters it was written for. -/
theorem readBasic_escapeAll (cs : List Char) (quotes : Nat) (found rest : List Char) :
    readBasic found (escapeAll false quotes cs ++ '"' :: rest) =
      some (textOf (cs.reverse ++ found), rest) := by
  induction cs generalizing quotes found with
  | nil => simp [escapeAll, readBasic]
  | cons c cs ih =>
    rw [List.reverse_cons, List.append_assoc, List.singleton_append]
    by_cases hquote : c = '"'
    · subst hquote
      rw [escapeAll, if_pos rfl, if_neg (by simp), List.cons_append, List.cons_append,
        readBasic_escape rfl, ih]
    · rw [escapeAll, if_neg hquote, List.append_assoc, readBasic_escaped hquote, ih]

theorem readLiteral_append {cs : List Char} (hquote : '\'' ∉ cs)
    (hplain : ∀ c ∈ cs, isPlain c = true) (found rest : List Char) :
    readLiteral found (cs ++ '\'' :: rest) = some (textOf (cs.reverse ++ found), rest) := by
  induction cs generalizing found with
  | nil => simp [readLiteral]
  | cons c cs ih =>
    obtain ⟨hc, hcs⟩ := List.forall_mem_cons.mp hplain
    obtain ⟨hne, hquotes⟩ := not_or.mp (mt List.mem_cons.mpr hquote)
    rw [List.reverse_cons, List.append_assoc, List.singleton_append, List.cons_append, readLiteral,
      if_pos hc, ih hquotes hcs]
    exact fun h => hne h.symm

/-! ## Quotes on several lines -/

/-- What a reader of several lines does with quotes: three of them close the text, others belong to
it. -/
structure ReadsQuotes (quote : Char)
    (read : List Char → List Char → Option (String × List Char)) : Prop where
  close : ∀ found rest,
    read found (quote :: quote :: quote :: rest) = some (closeLines quote found rest)
  pass : ∀ found rest, ¬ [quote, quote] <+: rest →
    read found (quote :: rest) = read (quote :: found) rest

theorem replicate_append_cons (quotes : Nat) (quote : Char) (more : List Char) :
    List.replicate quotes quote ++ quote :: more = List.replicate (quotes + 1) quote ++ more := by
  simp [List.replicate_succ']

theorem closeLines_of_head?_ne {quote : Char} {rest : List Char} (h : rest.head? ≠ some quote)
    (found : List Char) : closeLines quote found rest = (textOf found, rest) := by
  match rest with
  | [] => rfl
  | [a] | a :: b :: rest =>
    have ha : a ≠ quote := by simpa using h
    simp [closeLines, ha]

namespace ReadsQuotes

variable {quote : Char} {read : List Char → List Char → Option (String × List Char)}

/-- Before another character, up to two quotes are read as they are. -/
theorem pass_replicate (h : ReadsQuotes quote read) {quotes : Nat} (hquotes : quotes ≤ 2)
    {c : Char} (hc : c ≠ quote) (found rest : List Char) :
    read found (List.replicate quotes quote ++ c :: rest) =
      read (List.replicate quotes quote ++ found) (c :: rest) := by
  match quotes with
  | 0 => rfl
  | 1 => exact h.pass found _ (by simp [hc.symm])
  | 2 =>
    have hfirst := h.pass found (quote :: c :: rest) (by simp [hc.symm])
    have hsecond := h.pass (quote :: found) (c :: rest) (by simp [hc.symm])
    exact hfirst.trans hsecond

/-- Before the closing quotes, up to two more quotes belong to the text. -/
theorem close_replicate (h : ReadsQuotes quote read) {quotes : Nat} (hquotes : quotes ≤ 2)
    (found : List Char) {rest : List Char} (hrest : rest.head? ≠ some quote) :
    read found (List.replicate quotes quote ++ quote :: quote :: quote :: rest) =
      some (textOf (List.replicate quotes quote ++ found), rest) := by
  match quotes with
  | 0 =>
    have hclose := h.close found rest
    rwa [closeLines_of_head?_ne hrest] at hclose
  | 1 =>
    refine (h.close found (quote :: rest)).trans (congrArg some ?_)
    cases rest with
    | nil => simp [closeLines]
    | cons c rest => simp [closeLines, show c ≠ quote by simpa using hrest]
  | 2 =>
    refine (h.close found (quote :: quote :: rest)).trans (congrArg some ?_)
    simp [closeLines]

end ReadsQuotes

/-! ## Several lines -/

/-- A character that ends nothing and begins no escape is read as it is. -/
theorem readBasicLines_plain {c : Char} {found rest : List Char} (hplain : isPlain c = true)
    (hescape : c ≠ '\\') (hclose : ∀ rest', c :: rest ≠ '"' :: '"' :: '"' :: rest') :
    readBasicLines .no found (c :: rest) = readBasicLines .no (c :: found) rest := by
  have hline : c ≠ '\n' := by
    rintro rfl
    cases hplain
  have hreturn : c ≠ '\r' := by
    rintro rfl
    cases hplain
  rw [readBasicLines.eq_def]
  split
  case h_1 heq => cases heq
  case h_2 heq => exact absurd (List.cons.inj heq).1 hline
  case h_3 heq => exact absurd (List.cons.inj heq).1 hreturn
  case h_4 heq =>
    cases heq
    simp only [ne_eq, not_true_eq_false, false_and, if_false, reduceCtorEq]
    split
    case h_1 => exact absurd rfl (hclose _)
    case h_2 | h_3 | h_4 => exact absurd rfl hescape
    case h_5 => rw [if_pos hplain]

theorem readBasicLines_escape {x c : Char} (h : plainEscape? x = some c) (found rest : List Char) :
    readBasicLines .no found ('\\' :: x :: rest) = readBasicLines .no (c :: found) rest := by
  unfold plainEscape? at h
  split at h
  all_goals cases h
  all_goals
    rw [readBasicLines.eq_def]
    simp [isBlank, plainEscape?]

theorem readsQuotes_basicLines : ReadsQuotes '"' (readBasicLines .no) := by
  constructor
  · intro found rest
    rfl
  · intro found rest h
    refine readBasicLines_plain rfl (by decide) fun rest' heq => h ?_
    rw [(List.cons.inj heq).2]
    exact List.prefix_append ['"', '"'] rest'

theorem readBasicLines_escaped {c : Char} (h : c ≠ '"') (found rest : List Char) :
    readBasicLines .no found (escaped true c ++ rest) = readBasicLines .no (c :: found) rest := by
  rcases escaped_cases true c with ⟨x, hx, heq⟩ | ⟨a, b, hab, heq⟩ | ⟨hbackslash, hplain, heq⟩
  · rw [heq]
    exact readBasicLines_escape hx found rest
  · rw [heq, List.cons_append, readBasicLines.eq_def]
    simp [isBlank, hab]
  · rw [heq, List.singleton_append]
    rcases hplain with hplain | ⟨-, rfl⟩
    · exact readBasicLines_plain hplain hbackslash fun _ heq => h (List.cons.inj heq).1
    · rw [readBasicLines.eq_def]
      simp

/-- What is written in a basic text of several lines, behind the last few quotes, is read as the
characters it was written for. -/
theorem readBasicLines_escapeAll (cs : List Char) {quotes : Nat} (hquotes : quotes ≤ 2)
    (found : List Char) {rest : List Char} (hrest : rest.head? ≠ some '"') :
    readBasicLines .no found
        (List.replicate quotes '"' ++ (escapeAll true quotes cs ++ '"' :: '"' :: '"' :: rest)) =
      some (textOf (cs.reverse ++ (List.replicate quotes '"' ++ found)), rest) := by
  induction cs generalizing quotes found with
  | nil => exact readsQuotes_basicLines.close_replicate hquotes found hrest
  | cons c cs ih =>
    rw [List.reverse_cons, List.append_assoc, List.singleton_append]
    by_cases hquote : c = '"'
    · subst hquote
      by_cases hmore : quotes < 2
      · -- One more quote that stands as it is.
        have hnext := @ih (quotes + 1) (by omega) found
        rw [escapeAll, if_pos rfl, if_pos ⟨rfl, hmore⟩, List.cons_append, replicate_append_cons]
        exact hnext
      · -- A third one stands behind a backslash, before which the others are passed.
        have hnext := @ih 0 (by omega) ('"' :: (List.replicate quotes '"' ++ found))
        rw [escapeAll, if_pos rfl, if_neg (by simp [hmore]), List.cons_append, List.cons_append,
          readsQuotes_basicLines.pass_replicate hquotes (by decide), readBasicLines_escape rfl]
        exact hnext
    · -- What is written for another character begins with no quote, so the last ones are passed.
      obtain ⟨first, more, hfirst, heq⟩ := exists_escaped_eq_cons true hquote
      have hnext := @ih 0 (by omega) (c :: (List.replicate quotes '"' ++ found))
      have hpass := readsQuotes_basicLines.pass_replicate hquotes hfirst found
        (more ++ (escapeAll true 0 cs ++ '"' :: '"' :: '"' :: rest))
      rw [← List.cons_append, ← heq] at hpass
      rw [escapeAll, if_neg hquote, List.append_assoc, hpass, readBasicLines_escaped hquote]
      exact hnext

theorem readsQuotes_literalLines : ReadsQuotes '\'' readLiteralLines := by
  constructor
  · intro found rest
    rw [readLiteralLines]
  · intro found rest h
    rw [readLiteralLines, if_pos (by decide)]
    · rintro rest' - rfl
      exact h (List.prefix_append ['\'', '\''] rest')
    · decide
    · simp

/-- What stands in a literal text of several lines, behind the last few quotes, is read as it
stands. -/
theorem readLiteralLines_append {cs : List Char} (hcontrol : ∀ c ∈ cs, isControl c = false)
    {quotes : Nat} (hquotes : quotes ≤ 2) (hthree : hasThree '\'' quotes cs = false)
    (found : List Char) {rest : List Char} (hrest : rest.head? ≠ some '\'') :
    readLiteralLines found
        (List.replicate quotes '\'' ++ (cs ++ '\'' :: '\'' :: '\'' :: rest)) =
      some (textOf (cs.reverse ++ (List.replicate quotes '\'' ++ found)), rest) := by
  induction cs generalizing quotes found with
  | nil => exact readsQuotes_literalLines.close_replicate hquotes found hrest
  | cons c cs ih =>
    obtain ⟨hc, hcs⟩ := List.forall_mem_cons.mp hcontrol
    rw [List.reverse_cons, List.append_assoc, List.singleton_append]
    by_cases hquote : c = '\''
    · subst hquote
      -- There are no three in a row, so this one is the second at most.
      rw [hasThree, if_pos rfl, Bool.or_eq_false_iff] at hthree
      have hmore : quotes ≠ 2 := by simpa using hthree.1
      rw [List.cons_append, replicate_append_cons]
      exact ih hcs (show quotes + 1 ≤ 2 by omega) hthree.2 found
    · rw [hasThree, if_neg hquote] at hthree
      have hnext := ih hcs (Nat.zero_le 2) hthree (c :: (List.replicate quotes '\'' ++ found))
      rw [List.cons_append, readsQuotes_literalLines.pass_replicate hquotes hquote]
      by_cases hline : c = '\n'
      · subst hline
        rw [readLiteralLines]
        exact hnext
      · have hplain := isPlain_of_not_control hc hline
        rw [readLiteralLines, if_pos hplain]
        · exact hnext
        · simp [hquote]
        · exact hline
        · rintro rest' rfl
          cases hplain

/-! ## All forms -/

/-- The line end that is written in front is passed over, and nothing else is. -/
theorem skipLineEnd_leadingLineEnd {cs body : List Char} (h : '\n' ∉ cs → lineEnd? body = none) :
    skipLineEnd (leadingLineEnd cs ++ body) = body := by
  by_cases hline : '\n' ∈ cs
  · simp [leadingLineEnd, hline, skipLineEnd, lineEnd?]
  · simp [leadingLineEnd, hline, skipLineEnd, h hline]

theorem lineEnd?_cons {c : Char} (hline : c ≠ '\n') (hreturn : c ≠ '\r') (rest : List Char) :
    lineEnd? (c :: rest) = none := by
  simp [lineEnd?, hline, hreturn]

/-- Nothing that is written for a text without line ends begins with one. -/
theorem lineEnd?_escapeAll {cs : List Char} (hline : '\n' ∉ cs) (rest : List Char) :
    lineEnd? (escapeAll true 0 cs ++ '"' :: rest) = none := by
  cases cs with
  | nil => rfl
  | cons c cs =>
    by_cases hquote : c = '"'
    · subst hquote
      rfl
    · rw [escapeAll, if_neg hquote]
      rcases escaped_cases true c with ⟨x, -, heq⟩ | ⟨a, b, -, heq⟩ | ⟨-, hplain, heq⟩
      · rw [heq]
        rfl
      · rw [heq]
        rfl
      · have hne : c ≠ '\n' := fun h => hline (by simp [h])
        have hreturn : c ≠ '\r' := by
          rintro rfl
          simp [isPlain] at hplain
        rw [heq]
        exact lineEnd?_cons hne hreturn _

theorem lineEnd?_append {cs : List Char} (hcontrol : ∀ c ∈ cs, isControl c = false)
    (hline : '\n' ∉ cs) (rest : List Char) : lineEnd? (cs ++ '\'' :: rest) = none := by
  cases cs with
  | nil => rfl
  | cons c cs =>
    refine lineEnd?_cons (fun h => hline (by simp [h])) (fun h => ?_) _
    exact absurd (hcontrol c (by simp)) (by simp [h, isControl])

section Forms
variable {cs rest : List Char}

/-- Behind the quote in front there are no two more, which would begin several lines. -/
theorem escapeAll_append_ne (hrest : rest.head? ≠ some '"') :
    ∀ body, escapeAll false 0 cs ++ '"' :: rest ≠ '"' :: '"' :: body := by
  intro body h
  cases cs with
  | nil => exact hrest (by simp [(List.cons.inj h).2])
  | cons c cs =>
    by_cases hquote : c = '"'
    · subst hquote
      simp [escapeAll] at h
    · obtain ⟨first, more, hfirst, heq⟩ := exists_escaped_eq_cons false hquote
      simp [escapeAll, hquote, heq, hfirst] at h

theorem readText_basic (hrest : rest.head? ≠ some '"') :
    readText ('"' :: escapeAll false 0 cs ++ ['"'] ++ rest) = some (String.ofList cs, rest) := by
  have hread := readBasic_escapeAll cs 0 [] rest
  rw [List.append_assoc, List.singleton_append, List.cons_append, readText, hread]
  · simp [textOf]
  · exact escapeAll_append_ne hrest

theorem readText_literal (hquote : '\'' ∉ cs) (hplain : ∀ c ∈ cs, isPlain c = true)
    (hne : cs ≠ []) :
    readText ('\'' :: cs ++ ['\''] ++ rest) = some (String.ofList cs, rest) := by
  have hread := readLiteral_append hquote hplain [] rest
  have hshort : ∀ body, cs ++ '\'' :: rest ≠ '\'' :: '\'' :: body := by
    intro body heq
    obtain ⟨c, more, rfl⟩ := List.exists_cons_of_ne_nil hne
    exact hquote (by simp [(List.cons.inj heq).1])
  rw [List.append_assoc, List.singleton_append, List.cons_append, readText, hread]
  · simp [textOf]
  · exact hshort

theorem readText_basicLines (hrest : rest.head? ≠ some '"') :
    readText (betweenThree '"' (leadingLineEnd cs ++ escapeAll true 0 cs) ++ rest) =
      some (String.ofList cs, rest) := by
  have hread := readBasicLines_escapeAll cs (Nat.zero_le 2) [] hrest
  have hskip : skipLineEnd
      (leadingLineEnd cs ++ (escapeAll true 0 cs ++ '"' :: '"' :: '"' :: rest)) = _ :=
    skipLineEnd_leadingLineEnd fun hline => lineEnd?_escapeAll hline _
  simp only [betweenThree, List.cons_append, List.append_assoc, List.nil_append]
  change readBasicLines .no [] (skipLineEnd _) = _
  rw [hskip]
  simpa [textOf] using hread

theorem readText_literalLines (hcontrol : ∀ c ∈ cs, isControl c = false)
    (hthree : hasThree '\'' 0 cs = false) (hrest : rest.head? ≠ some '\'') :
    readText (betweenThree '\'' (leadingLineEnd cs ++ cs) ++ rest) =
      some (String.ofList cs, rest) := by
  have hread := readLiteralLines_append hcontrol (Nat.zero_le 2) hthree [] hrest
  have hskip : skipLineEnd (leadingLineEnd cs ++ (cs ++ '\'' :: '\'' :: '\'' :: rest)) = _ :=
    skipLineEnd_leadingLineEnd fun hline => lineEnd?_append hcontrol hline _
  simp only [betweenThree, List.cons_append, List.append_assoc, List.nil_append]
  change readLiteralLines [] (skipLineEnd _) = _
  rw [hskip]
  simpa [textOf] using hread

end Forms

/-- A text is written without escapes on one line only if it has a character, no single quote, no
line end and no control. -/
theorem of_textForm_eq_literal {cs : List Char} (h : textForm cs = .literal) :
    '\'' ∉ cs ∧ (∀ c ∈ cs, isPlain c = true) ∧ cs ≠ [] := by
  unfold textForm at h
  grind [isPlain_of_not_control]

/-- A text is written without escapes on several lines only if it has no control and no three single
quotes in a row. -/
theorem of_textForm_eq_literalLines {cs : List Char} (h : textForm cs = .literalLines) :
    (∀ c ∈ cs, isControl c = false) ∧ hasThree '\'' 0 cs = false := by
  unfold textForm at h
  grind

/-- **A text is read as it was written**, whatever its characters are, up to where it ends. -/
theorem readText_writeText (s : String) {rest : List Char} (hbasic : rest.head? ≠ some '"')
    (hliteral : rest.head? ≠ some '\'') : readText (writeText s ++ rest) = some (s, rest) := by
  have hs : String.ofList s.toList = s := String.ofList_toList
  rw [writeText]
  cases h : textForm s.toList with
  | basic => rw [readText_basic hbasic, hs]
  | literal =>
    obtain ⟨hquote, hplain, hne⟩ := of_textForm_eq_literal h
    rw [readText_literal hquote hplain hne, hs]
  | basicLines => rw [readText_basicLines hbasic, hs]
  | literalLines =>
    obtain ⟨hcontrol, hthree⟩ := of_textForm_eq_literalLines h
    rw [readText_literalLines hcontrol hthree hliteral, hs]

end DepositForm.Toml
