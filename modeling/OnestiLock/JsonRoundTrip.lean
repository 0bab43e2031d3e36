import OnestiLock.JsonWrite

/-! Containers and whole values are read back as they were written, whatever the
spacing, and reading a container takes as many turns as it has parts. -/

namespace Json

open Python

/-! Containers. -/

theorem ok_bind {α β : Type} (a : α) (f : α → Except Fault β) : (Except.ok a >>= f) = f a := rfl

theorem skip_cons {c : CodePoint} (h : isSpace c = false) (t : Text) : skip (c :: t) = c :: t := by
  rw [skip, List.dropWhile_cons, if_neg (by simp [h])]

theorem skip_blank {w : Text} (h : ∀ c ∈ w, isSpace c = true) (t : Text) : skip (w ++ t) = skip t := by
  induction w with
  | nil => rfl
  | cons c w ih =>
    rw [List.cons_append, skip, List.dropWhile_cons, if_pos (h c List.mem_cons_self)]
    exact ih fun d hd => h d (List.mem_cons_of_mem c hd)

theorem numberEnds_cons {c : CodePoint} (hc : isDigit c = false ∧ c ≠ code '.' ∧ c ≠ code 'e' ∧ c ≠ code 'E')
    (t : Text) : NumberEnds (c :: t) := by
  intro d hd
  cases hd
  exact hc

theorem numberEnds_blank {w : Text} (h : ∀ c ∈ w, isSpace c = true) {t : Text} (ht : NumberEnds t) :
    NumberEnds (w ++ t) := by
  cases w with
  | nil => exact ht
  | cons c w =>
    have hspace := h c List.mem_cons_self
    refine numberEnds_cons ⟨?_, ?_, ?_, ?_⟩ (w ++ t)
    · simp only [isSpace, Bool.or_eq_true, beq_iff_eq] at hspace
      simp only [isDigit, Bool.and_eq_false_iff, decide_eq_false_iff_not]
      omega
    · rintro rfl
      cases hspace
    · rintro rfl
      cases hspace
    · rintro rfl
      cases hspace

/-- It starts with a symbol that is neither space nor this one. -/
def Fronted (close : CodePoint) (t : Text) : Prop :=
  ∃ c rest, t = c :: rest ∧ isSpace c = false ∧ c ≠ close

theorem Fronted.skip_append {close : CodePoint} {t : Text} (h : Fronted close t) (rest : Text) :
    skip (t ++ rest) = t ++ rest := by
  obtain ⟨c, more, rfl, hspace, -⟩ := h
  exact skip_cons hspace _

/-- It closes a container, and a number before it ends there. -/
structure Closes (close : CodePoint) : Prop where
  noSpace : isSpace close = false
  noComma : close ≠ code ','
  ends : ∀ t, NumberEnds (close :: t)

theorem closes_list : Closes (code ']') := ⟨by decide, by decide, numberEnds_cons (by decide)⟩

theorem closes_object : Closes (code '\x7d') := ⟨by decide, by decide, numberEnds_cons (by decide)⟩

section

variable {α : Type} {parse : Text → Except Fault (α × Text)} {print : α → Text} {close : CodePoint}
variable {between inside : Text}

/-- Parts that are read back one by one are read back together. -/
theorem elements_written (hclose : Closes close) (hbetween : ∀ c ∈ between, isSpace c = true)
    (hinside : ∀ c ∈ inside, isSpace c = true) (a : α) (l : List α) (tail : Text) (bound : Nat)
    (hbound : l.length < bound)
    (hparse : ∀ b ∈ a :: l, ∀ rest, NumberEnds rest → parse (print b ++ rest) = .ok (b, rest))
    (hfront : ∀ b ∈ a :: l, Fronted close (print b)) :
    elements parse close bound (print a ++ (l.flatMap (fun b => code ',' :: (between ++ print b)) ++
      (inside ++ close :: tail))) = .ok (a :: l, tail) := by
  induction l generalizing a bound with
  | nil =>
    obtain ⟨bound, rfl⟩ := Nat.exists_eq_succ_of_ne_zero (by omega : bound ≠ 0)
    have ha := hparse a (by simp) (inside ++ close :: tail) (numberEnds_blank hinside (hclose.ends tail))
    have hskip : skip (inside ++ close :: tail) = close :: tail := by
      rw [skip_blank hinside, skip_cons hclose.noSpace]
    rw [List.flatMap_nil, List.nil_append, elements, ha]
    simp only [ok_bind, hskip, if_true]
  | cons b l ih =>
    obtain ⟨bound, rfl⟩ := Nat.exists_eq_succ_of_ne_zero (by omega : bound ≠ 0)
    have hrest := ih b bound (by simpa using hbound) (fun c hc => hparse c (List.mem_cons_of_mem a hc))
      (fun c hc => hfront c (List.mem_cons_of_mem a hc))
    have ha := hparse a (by simp) (code ',' :: (between ++ (print b ++
      (l.flatMap (fun b => code ',' :: (between ++ print b)) ++ (inside ++ close :: tail)))))
      (numberEnds_cons (by decide) _)
    have hb := (hfront b (by simp)).skip_append
      (l.flatMap (fun b => code ',' :: (between ++ print b)) ++ (inside ++ close :: tail))
    have hskip := skip_blank hbetween (print b ++
      (l.flatMap (fun b => code ',' :: (between ++ print b)) ++ (inside ++ close :: tail)))
    rw [hb] at hskip
    have hcomma : isSpace (code ',') = false := by decide
    simp only [List.flatMap_cons, List.cons_append, List.append_assoc]
    rw [elements, ha]
    simp only [ok_bind, skip_cons hcomma, if_neg hclose.noComma.symm, if_true, hskip, hrest]

theorem container_written (hclose : Closes close) (hbetween : ∀ c ∈ between, isSpace c = true)
    (hinside : ∀ c ∈ inside, isSpace c = true) {opening : Text} (hopening : ∀ c ∈ opening, isSpace c = true) (a : α)
    (l : List α) (tail : Text)
    (hparse : ∀ b ∈ a :: l, ∀ rest, NumberEnds rest → parse (print b ++ rest) = .ok (b, rest))
    (hfront : ∀ b ∈ a :: l, Fronted close (print b)) :
    container parse close (opening ++ (print a ++ (l.flatMap (fun b => code ',' :: (between ++ print b)) ++
      (inside ++ close :: tail)))) = .ok (a :: l, tail) := by
  have ha := hfront a (by simp)
  have hskip := skip_blank hopening (print a ++
    (l.flatMap (fun b => code ',' :: (between ++ print b)) ++ (inside ++ close :: tail)))
  rw [ha.skip_append] at hskip
  have hlength : ∀ l : List α, l.length ≤ (l.flatMap (fun b => code ',' :: (between ++ print b))).length := by
    intro l
    induction l with
    | nil => exact Nat.le_refl 0
    | cons b l ih =>
      simp only [List.flatMap_cons, List.length_append, List.length_cons]
      omega
  have hbound : l.length < (print a ++ (l.flatMap (fun b => code ',' :: (between ++ print b)) ++
      (inside ++ close :: tail))).length := by
    have hl := hlength l
    simp only [List.length_append, List.length_cons]
    omega
  have helements : elements parse close _ (print a ++ (l.flatMap (fun b => code ',' :: (between ++ print b)) ++
      (inside ++ close :: tail))) = .ok (a :: l, tail) :=
    elements_written hclose hbetween hinside a l tail _ hbound hparse hfront
  obtain ⟨c, rest, hc, -, hne⟩ := ha
  rw [hc, List.cons_append] at hskip helements
  rw [hc, List.cons_append, container, hskip]
  simp only [if_neg hne]
  exact helements

end

/-! Values. -/

/-- A written number is read back, and is one piece of a line. -/
structure ReadsBack (reprFloat : Real → Text) (r : Real) : Prop where
  read : ∀ depth rest, NumberEnds rest → value depth (reprFloat r ++ rest) = .ok (.real r, rest)
  front : Fronted (code ']') (reprFloat r)
  plain : ∀ c ∈ reprFloat r, 0x20 ≤ c.val

/-- What is read back as it was written, within so many levels of containers. -/
def Legible (reprFloat : Real → Text) : Nat → Value → Prop
  | _, .null => True
  | _, .bool _ => True
  | _, .int n => n.natAbs < 10 ^ maxStrDigits
  | _, .real r => ReadsBack reprFloat r
  | _, .str s => Unpaired s
  | 0, .list _ => False
  | 0, .object _ => False
  | depth + 1, .list l => ∀ v ∈ l, Legible reprFloat depth v
  | depth + 1, .object l => ∀ f ∈ l, Unpaired f.1 ∧ Legible reprFloat depth f.2

/-- It is read back however fractions are written: it has none. -/
def Fits : Nat → Value → Prop
  | _, .null => True
  | _, .bool _ => True
  | _, .int n => n.natAbs < 10 ^ maxStrDigits
  | _, .real _ => False
  | _, .str s => Unpaired s
  | 0, .list _ => False
  | 0, .object _ => False
  | depth + 1, .list l => ∀ v ∈ l, Fits depth v
  | depth + 1, .object l => ∀ f ∈ l, Unpaired f.1 ∧ Fits depth f.2

section

variable {spacing : Spacing} {reprFloat : Real → Text}

theorem Fits.legible {depth : Nat} {v : Value} (h : Fits depth v) : Legible reprFloat depth v := by
  induction depth generalizing v with
  | zero =>
    cases v with
    | real r => exact absurd h id
    | _ => exact h
  | succ depth ih =>
    cases v with
    | list l => exact fun v hv => ih (h v hv)
    | object l => exact fun f hf => ⟨(h f hf).1, ih (h f hf).2⟩
    | real r => exact absurd h id
    | _ => exact h

theorem writeItems_eq (level : Nat) (l : List Value) : writeItems spacing reprFloat level l =
    l.flatMap (fun v => code ',' :: (spacing.between level ++ write spacing reprFloat level v)) := by
  induction l with
  | nil => rfl
  | cons v l ih => rw [writeItems, ih, List.flatMap_cons, List.cons_append, List.append_assoc]

/-- A key and its value. -/
def writeField (spacing : Spacing) (reprFloat : Real → Text) (level : Nat) (f : Text × Value) : Text :=
  writeString f.1 ++ (text ": " ++ write spacing reprFloat level f.2)

theorem writeFields_eq (level : Nat) (l : List (Text × Value)) : writeFields spacing reprFloat level l =
    l.flatMap (fun f => code ',' :: (spacing.between level ++ writeField spacing reprFloat level f)) := by
  induction l with
  | nil => rfl
  | cons f l ih =>
    rw [writeFields, ih, List.flatMap_cons, writeField]
    simp only [List.cons_append, List.append_assoc]

theorem fronted_digits {t : Text} (ht : ∀ c ∈ t, isDigit c = true) (hne : t ≠ []) : Fronted (code ']') t := by
  obtain ⟨c, rest, hc⟩ := List.exists_cons_of_ne_nil hne
  have hdigit : isDigit c = true := ht c (by simp [hc])
  refine ⟨c, rest, hc, ?_, ?_⟩
  · simp only [isDigit, Bool.and_eq_true, decide_eq_true_eq] at hdigit
    simp only [isSpace, Bool.or_eq_false_iff, beq_eq_false_iff_ne]
    omega
  · rintro rfl
    cases hdigit

theorem fronted_write {depth level : Nat} {v : Value} (h : Legible reprFloat depth v) :
    Fronted (code ']') (write spacing reprFloat level v) := by
  cases v with
  | null => exact ⟨_, _, rfl, by decide, by decide⟩
  | bool b => cases b <;> exact ⟨_, _, rfl, by decide, by decide⟩
  | int n =>
    rw [write, writeInt]
    split
    · exact ⟨_, _, rfl, by decide, by decide⟩
    · exact fronted_digits (decimal_digits _) (decimal_ne_nil _)
  | real r =>
    have hreal : ReadsBack reprFloat r := by cases depth <;> exact h
    exact hreal.front
  | str s => exact ⟨_, _, rfl, by decide, by decide⟩
  | list l => cases l <;> exact ⟨_, _, rfl, by decide, by decide⟩
  | object l =>
    rcases l with _ | ⟨⟨k, v⟩, l⟩ <;> exact ⟨_, _, rfl, by decide, by decide⟩

theorem value_of_scalar {t : Text} {c : CodePoint} {rest : Text} (ht : t = c :: rest)
    (hc : c ≠ code '[' ∧ c ≠ code '\x7b') (depth : Nat) : value depth t = scalar t := by
  subst ht
  cases depth <;> simp [value, hc]

theorem scalar_literal {word : Text} {v : Value} {rest : Text}
    (hfind : literals.find? (fun l => l.1.isPrefixOf (word ++ rest)) = some (word, v))
    (hfront : Fronted (code '"') word) : scalar (word ++ rest) = .ok (v, rest) := by
  obtain ⟨c, more, hc, -, hquote⟩ := hfront
  have hdrop : (word ++ rest).drop word.length = rest := by simp
  have hcons : word ++ rest = c :: (more ++ rest) := by rw [hc, List.cons_append]
  rw [hcons] at hfind hdrop ⊢
  rw [scalar, if_neg hquote, hfind]
  simp only [hdrop]

theorem scalar_writeString {s rest : Text} (h : Unpaired s) :
    scalar (writeString s ++ rest) = .ok (.str s, rest) := by
  have hread := string_writeString h rest
  rw [writeString, List.cons_append, List.append_assoc, scalar, if_pos rfl]
  simp only [List.cons_append, List.nil_append, hread]

theorem member_writeField {parse : Text → Except Fault (Value × Text)} {level : Nat} {f : Text × Value}
    {rest : Text} (hkey : Unpaired f.1) (hfront : Fronted (code ']') (write spacing reprFloat level f.2))
    (hparse : parse (write spacing reprFloat level f.2 ++ rest) = .ok (f.2, rest)) :
    member parse (writeField spacing reprFloat level f ++ rest) = .ok (f, rest) := by
  have hread := string_writeString hkey (text ": " ++ (write spacing reprFloat level f.2 ++ rest))
  have hcolon : text ": " = [code ':', code ' '] := rfl
  have hspace : skip (code ' ' :: (write spacing reprFloat level f.2 ++ rest)) =
      write spacing reprFloat level f.2 ++ rest :=
    (skip_blank space_blank _).trans (hfront.skip_append rest)
  have hskip : skip (code ':' :: code ' ' :: (write spacing reprFloat level f.2 ++ rest)) =
      code ':' :: code ' ' :: (write spacing reprFloat level f.2 ++ rest) := skip_cons (by decide) _
  rw [hcolon] at hread
  simp only [List.cons_append, List.nil_append] at hread
  simp only [writeField, writeString, hcolon, List.cons_append, List.append_assoc, List.nil_append]
  rw [member, if_pos rfl]
  simp only [hread, hskip, if_true, hspace, hparse, ok_bind]

/-- Whatever the level, a value that is no container is read as a scalar. -/
theorem value_writeInt {n : Int} (hn : n.natAbs < 10 ^ maxStrDigits) {rest : Text} (hends : NumberEnds rest)
    (depth : Nat) : value depth (writeInt n ++ rest) = .ok (.int n, rest) := by
  have hscalar := scalar_writeInt hn hends
  have hfront : ∃ c more, writeInt n ++ rest = c :: more ∧ c ≠ code '[' ∧ c ≠ code '\x7b' := by
    rw [writeInt]
    split
    · exact ⟨_, _, rfl, by decide, by decide⟩
    · obtain ⟨c, more, hc⟩ := List.exists_cons_of_ne_nil (decimal_ne_nil n.natAbs)
      have hdigit : isDigit c = true := decimal_digits n.natAbs c (by simp [hc])
      refine ⟨c, more ++ rest, by rw [hc, List.cons_append], ?_, ?_⟩
      · rintro rfl
        cases hdigit
      · rintro rfl
        cases hdigit
  obtain ⟨c, more, hc, hbrackets⟩ := hfront
  rw [value_of_scalar hc hbrackets]
  exact hscalar

theorem value_writeString {s : Text} (h : Unpaired s) (rest : Text) (depth : Nat) :
    value depth (writeString s ++ rest) = .ok (.str s, rest) := by
  have hquote : code '"' ≠ code '[' ∧ code '"' ≠ code '\x7b' := by decide
  have hcons : writeString s ++ rest = code '"' :: (s.flatMap escaped ++ [code '"'] ++ rest) := rfl
  rw [value_of_scalar hcons hquote]
  exact scalar_writeString h

theorem value_literal {word : Text} {v : Value} {rest : Text} (depth : Nat)
    (hfind : literals.find? (fun l => l.1.isPrefixOf (word ++ rest)) = some (word, v))
    (hfront : ∃ c more, word = c :: more ∧ isSpace c = false ∧ c ≠ code '"' ∧ c ≠ code '[' ∧ c ≠ code '\x7b') :
    value depth (word ++ rest) = .ok (v, rest) := by
  obtain ⟨c, more, hc, hspace, hquote, hbrackets⟩ := hfront
  have hcons : word ++ rest = c :: (more ++ rest) := by rw [hc, List.cons_append]
  rw [value_of_scalar hcons hbrackets]
  exact scalar_literal hfind ⟨c, more, hc, hspace, hquote⟩

theorem value_writeList {depth level : Nat} {l : List Value}
    (hread : ∀ v ∈ l, ∀ rest, NumberEnds rest →
      value depth (write spacing reprFloat (level + 1) v ++ rest) = .ok (v, rest))
    (hfront : ∀ v ∈ l, Fronted (code ']') (write spacing reprFloat (level + 1) v)) (rest : Text) :
    value (depth + 1) (write spacing reprFloat level (.list l) ++ rest) = .ok (.list l, rest) := by
  cases l with
  | nil => rfl
  | cons v l =>
    have hcontainer := container_written closes_list (spacing.between_blank (level + 1))
      (spacing.inside_blank level) (spacing.inside_blank (level + 1)) v l rest hread hfront
    rw [← writeItems_eq] at hcontainer
    simp only [write, List.cons_append, List.append_assoc, List.nil_append]
    rw [value, if_pos rfl, hcontainer]
    rfl

theorem value_writeObject {depth level : Nat} {l : List (Text × Value)}
    (hread : ∀ f ∈ l, ∀ rest, NumberEnds rest →
      value depth (write spacing reprFloat (level + 1) f.2 ++ rest) = .ok (f.2, rest))
    (hkeys : ∀ f ∈ l, Unpaired f.1)
    (hfront : ∀ f ∈ l, Fronted (code ']') (write spacing reprFloat (level + 1) f.2)) (rest : Text) :
    value (depth + 1) (write spacing reprFloat level (.object l) ++ rest) = .ok (.object l, rest) := by
  cases l with
  | nil => rfl
  | cons f l =>
    have hmember : ∀ g ∈ f :: l, ∀ rest, NumberEnds rest →
        member (value depth) (writeField spacing reprFloat (level + 1) g ++ rest) = .ok (g, rest) :=
      fun g hg rest hrest => member_writeField (hkeys g hg) (hfront g hg) (hread g hg rest hrest)
    have hquoted : ∀ g ∈ f :: l, Fronted (code '\x7d') (writeField spacing reprFloat (level + 1) g) :=
      fun g _ => ⟨_, _, rfl, by decide, by decide⟩
    have hcontainer := container_written closes_object (spacing.between_blank (level + 1))
      (spacing.inside_blank level) (spacing.inside_blank (level + 1)) f l rest hmember hquoted
    rw [← writeFields_eq, writeField] at hcontainer
    obtain ⟨k, v⟩ := f
    simp only [List.append_assoc] at hcontainer
    simp only [write, List.cons_append, List.append_assoc, List.nil_append]
    rw [value, if_neg (by decide), if_pos rfl, hcontainer]
    rfl

theorem value_write {depth level : Nat} {v : Value} (h : Legible reprFloat depth v) {rest : Text}
    (hends : NumberEnds rest) : value depth (write spacing reprFloat level v ++ rest) = .ok (v, rest) := by
  induction depth generalizing level v rest with
  | zero =>
    cases v with
    | null => exact value_literal 0 rfl ⟨_, _, rfl, by decide⟩
    | bool b => cases b <;> exact value_literal 0 rfl ⟨_, _, rfl, by decide⟩
    | int n => exact value_writeInt h hends 0
    | real r => exact h.read 0 rest hends
    | str s => exact value_writeString h rest _
    | list l => exact absurd h id
    | object l => exact absurd h id
  | succ depth ih =>
    cases v with
    | null => exact value_literal _ rfl ⟨_, _, rfl, by decide⟩
    | bool b => cases b <;> exact value_literal _ rfl ⟨_, _, rfl, by decide⟩
    | int n => exact value_writeInt h hends _
    | real r => exact h.read _ rest hends
    | str s => exact value_writeString h rest _
    | list l =>
      exact value_writeList (fun v hv rest hrest => ih (h v hv) hrest) (fun v hv => fronted_write (h v hv)) rest
    | object l =>
      exact value_writeObject (fun f hf rest hrest => ih (h f hf).2 hrest) (fun f hf => (h f hf).1)
        (fun f hf => fronted_write (h f hf).2) rest

theorem loads_write {maxDepth : Nat} {v : Value} (h : Legible reprFloat maxDepth v) {tail : Text}
    (htail : ∀ c ∈ tail, isSpace c = true) : loads maxDepth (write spacing reprFloat 0 v ++ tail) = .ok v := by
  have hfront : Fronted (code ']') (write spacing reprFloat 0 v) := fronted_write h
  have hnil : NumberEnds [] := by
    intro c hc
    cases hc
  have hends : NumberEnds tail := List.append_nil tail ▸ numberEnds_blank htail hnil
  have hread : value maxDepth (write spacing reprFloat 0 v ++ tail) = .ok (v, tail) := value_write h hends
  have hrest : skip tail = [] := List.append_nil tail ▸ skip_blank htail []
  rw [loads, hfront.skip_append tail, hread, ok_bind]
  simp only [hrest, if_true]

end

/-! What symbols a written text has. -/

/-- The ASCII symbols that stand on a line. -/
def Printable (c : CodePoint) : Prop := 0x20 ≤ c.val ∧ c.val < 0x7f

instance decidablePrintable : DecidablePred Printable :=
  fun c => inferInstanceAs (Decidable (0x20 ≤ c.val ∧ c.val < 0x7f))

theorem hexDigit_printable {n : Nat} (h : n < 16) : Printable (hexDigit n) := by
  interval_cases n <;> decide

theorem text_printable {s : String} (h : (text s).all (fun c => decide (Printable c)) = true) :
    ∀ c ∈ text s, Printable c := fun c hc => of_decide_eq_true (List.all_eq_true.mp h c hc)

theorem unicodeEscape_printable {n : Nat} (h : n < 0x10000) : ∀ c ∈ unicodeEscape n, Printable c := by
  have h0 : Printable (hexDigit (n / 4096)) := hexDigit_printable (by omega)
  have h1 : Printable (hexDigit (n / 256 % 16)) := hexDigit_printable (by omega)
  have h2 : Printable (hexDigit (n / 16 % 16)) := hexDigit_printable (by omega)
  have h3 : Printable (hexDigit (n % 16)) := hexDigit_printable (by omega)
  have hescape : Printable (code '\\') ∧ Printable (code 'u') := by decide
  intro c hc
  simp only [unicodeEscape, List.mem_cons, List.not_mem_nil, or_false] at hc
  rcases hc with rfl | rfl | rfl | rfl | rfl | rfl
  · exact hescape.1
  · exact hescape.2
  · exact h0
  · exact h1
  · exact h2
  · exact h3

theorem escaped_printable (c : CodePoint) : ∀ d ∈ escaped c, Printable d := by
  have hcode := c.isLt
  intro d hd
  unfold escaped at hd
  split at hd
  · rename_i hplain
    simp only [isPlain, Bool.and_eq_true, decide_eq_true_eq] at hplain
    rw [List.mem_singleton] at hd
    rw [hd]
    exact ⟨hplain.1.1.1, by omega⟩
  · split at hd
    · rename_i p hp
      have htable : escapes.all (fun p => decide (Printable p.1)) = true := by decide
      have hmem := List.all_eq_true.mp htable p (List.mem_of_find?_eq_some hp)
      have hback : Printable (code '\\') := by decide
      simp only [List.mem_cons, List.not_mem_nil, or_false] at hd
      rcases hd with rfl | rfl
      · exact hback
      · exact of_decide_eq_true hmem
    · split at hd
      · rename_i hsmall
        exact unicodeEscape_printable hsmall d hd
      · rcases List.mem_append.mp hd with hd | hd
        · exact unicodeEscape_printable (by omega) d hd
        · exact unicodeEscape_printable (by omega) d hd

theorem writeString_printable (s : Text) : ∀ c ∈ writeString s, Printable c := by
  have hquote : Printable (code '"') := by decide
  intro c hc
  simp only [writeString, List.mem_cons, List.mem_append, List.mem_flatMap, List.not_mem_nil, or_false] at hc
  rcases hc with rfl | ⟨d, -, hd⟩ | rfl
  · exact hquote
  · exact escaped_printable d c hd
  · exact hquote

theorem writeInt_printable (n : Int) : ∀ c ∈ writeInt n, Printable c := by
  have hminus : Printable (code '-') := by decide
  have hdecimal : ∀ c ∈ decimal n.natAbs, Printable c := by
    intro c hc
    have hdigit := decimal_digits n.natAbs c hc
    simp only [isDigit, Bool.and_eq_true, decide_eq_true_eq] at hdigit
    exact ⟨by omega, by omega⟩
  rw [writeInt]
  split
  · rw [List.forall_mem_cons]
    exact ⟨hminus, hdecimal⟩
  · exact hdecimal

theorem isAscii_iff {t : Text} : t.isAscii = true ↔ ∀ c ∈ t, c.val < 128 := by
  simp [Text.isAscii]

section

variable {spacing : Spacing} {reprFloat : Real → Text} {Allowed : CodePoint → Prop}

/-- Of a container: its brackets, its space, and what its parts have. -/
theorem mem_parts {α : Type} {put : α → Text} {l : List α} {between : Text} (hcomma : Allowed (code ','))
    (hbetween : ∀ c ∈ between, Allowed c) (h : ∀ a ∈ l, ∀ c ∈ put a, Allowed c) :
    ∀ c ∈ l.flatMap (fun a => code ',' :: (between ++ put a)), Allowed c := by
  intro c hc
  obtain ⟨a, ha, hc⟩ := List.mem_flatMap.mp hc
  rcases List.mem_cons.mp hc with rfl | hc
  · exact hcomma
  · rcases List.mem_append.mp hc with hc | hc
    · exact hbetween c hc
    · exact h a ha c hc

theorem mem_writeField {level : Nat} {f : Text × Value} (hprintable : ∀ c, Printable c → Allowed c)
    (hv : ∀ c ∈ write spacing reprFloat level f.2, Allowed c) :
    ∀ c ∈ writeField spacing reprFloat level f, Allowed c := by
  rw [writeField, List.forall_mem_append, List.forall_mem_append]
  exact ⟨fun c hc => hprintable c (writeString_printable f.1 c hc),
    fun c hc => hprintable c (text_printable (by decide) c hc), hv⟩

/-- Besides the space and the fractions, what is written is printable. -/
theorem mem_write {depth level : Nat} {v : Value} (hprintable : ∀ c, Printable c → Allowed c)
    (hinside : ∀ level, ∀ c ∈ spacing.inside level, Allowed c)
    (hbetween : ∀ level, ∀ c ∈ spacing.between level, Allowed c)
    (hreal : ∀ r, ReadsBack reprFloat r → ∀ c ∈ reprFloat r, Allowed c) (h : Legible reprFloat depth v) :
    ∀ c ∈ write spacing reprFloat level v, Allowed c := by
  have hword : ∀ {s : String}, (text s).all (fun c => decide (Printable c)) = true →
      ∀ c ∈ text s, Allowed c := fun hs c hc => hprintable c (text_printable hs c hc)
  have hsign : ∀ {c : CodePoint}, decide (Printable c) = true → Allowed c :=
    fun hc => hprintable _ (of_decide_eq_true hc)
  induction depth generalizing level v with
  | zero =>
    cases v with
    | null => exact hword (by decide)
    | bool b => cases b <;> exact hword (by decide)
    | int n => exact fun c hc => hprintable c (writeInt_printable n c hc)
    | real r => exact hreal r h
    | str s => exact fun c hc => hprintable c (writeString_printable s c hc)
    | list l => exact absurd h id
    | object l => exact absurd h id
  | succ depth ih =>
    cases v with
    | null => exact hword (by decide)
    | bool b => cases b <;> exact hword (by decide)
    | int n => exact fun c hc => hprintable c (writeInt_printable n c hc)
    | real r => exact hreal r h
    | str s => exact fun c hc => hprintable c (writeString_printable s c hc)
    | list l =>
      cases l with
      | nil => exact hword (by decide)
      | cons v l =>
        have hl : ∀ u ∈ v :: l, ∀ c ∈ write spacing reprFloat (level + 1) u, Allowed c := fun u hu => ih (h u hu)
        have hparts := mem_parts (hsign (by decide)) (hbetween (level + 1))
          (fun u hu => hl u (List.mem_cons_of_mem v hu))
        rw [write, writeItems_eq]
        simp only [List.forall_mem_cons, List.forall_mem_append]
        exact ⟨hsign (by decide), hinside _, hl v List.mem_cons_self, hparts, hinside _, hsign (by decide), by simp⟩
    | object l =>
      rcases l with _ | ⟨⟨k, v⟩, l⟩
      · exact hword (by decide)
      · have hl : ∀ f ∈ (k, v) :: l, ∀ c ∈ write spacing reprFloat (level + 1) f.2, Allowed c :=
          fun f hf => ih (h f hf).2
        have hparts := mem_parts (hsign (by decide)) (hbetween (level + 1))
          (fun f hf => mem_writeField hprintable (hl f (List.mem_cons_of_mem _ hf)))
        rw [write, writeFields_eq]
        simp only [List.forall_mem_cons, List.forall_mem_append]
        exact ⟨hsign (by decide), hinside _, fun c hc => hprintable c (writeString_printable k c hc),
          hword (by decide), hl (k, v) List.mem_cons_self, hparts, hinside _, hsign (by decide), by simp⟩

end

section

variable {reprFloat : Real → Text}

theorem write_ascii {depth level : Nat} {v : Value} (hreal : ∀ r, ∀ c ∈ reprFloat r, c.val < 128)
    (h : Legible reprFloat depth v) : ∀ c ∈ write .indented reprFloat level v, c.val < 128 := by
  have hprintable : ∀ c, Printable c → c.val < 128 := fun c hc => by
    have hlow := hc.2
    omega
  have hnewline : ∀ level, ∀ c ∈ newline level, c.val < 128 := by
    intro level c hc
    have hspace := newline_blank level c hc
    simp only [isSpace, Bool.or_eq_true, beq_iff_eq] at hspace
    omega
  exact mem_write hprintable hnewline hnewline (fun r _ => hreal r) h

end

/-! `loads` bounds the parts of a container by the length of the text. Every
value takes up some of the text, so no container is refused for the bound. -/

/-- Reading takes up some of the text. -/
def Consumes {α : Type} (parse : Text → Except Fault (α × Text)) : Prop :=
  ∀ t a rest, parse t = .ok (a, rest) → rest.length < t.length

theorem length_skip (t : Text) : (skip t).length ≤ t.length := (List.dropWhile_sublist isSpace).length_le

theorem rawString_consumes {t raw rest : Text} (h : rawString t = some (raw, rest)) :
    rest.length < t.length := by
  fun_induction rawString t generalizing raw with
  | case1 => cases h
  | case2 more =>
    cases h
    exact Nat.lt_succ_self _
  | case3 => cases h
  | case4 e more hback ih =>
    obtain ⟨p, hp, heq⟩ := Option.map_eq_some_iff.mp h
    cases heq
    have hless := ih hp
    simp only [List.length_cons]
    omega
  | case5 c more hquote hback ih =>
    obtain ⟨p, hp, heq⟩ := Option.map_eq_some_iff.mp h
    cases heq
    have hless := ih hp
    simp only [List.length_cons]
    omega

theorem string_consumes {t s rest : Text} (h : string t = some (s, rest)) : rest.length < t.length := by
  obtain ⟨p, hp, heq⟩ := Option.bind_eq_some_iff.mp h
  obtain ⟨l, -, hl⟩ := Option.map_eq_some_iff.mp heq
  cases hl
  exact rawString_consumes hp

theorem length_signed (t : Text) : (signed t).2.length ≤ t.length := by
  cases t with
  | nil => exact Nat.le_refl 0
  | cons c more =>
    simp only [signed]
    split <;> simp

theorem length_exponentSign (t : Text) : (exponentSign t).2.length ≤ t.length := by
  cases t with
  | nil => exact Nat.le_refl 0
  | cons s more =>
    simp only [exponentSign]
    split
    · simp
    · split <;> simp

theorem length_dropFraction (t : Text) : (dropFraction t).length ≤ t.length := by
  unfold dropFraction
  split <;> simp

theorem exponentPart_length {t rest : Text} {exponent : Int} (h : exponentPart t = some (exponent, rest)) :
    rest.length ≤ t.length := by
  cases t with
  | nil => cases h
  | cons c more =>
    simp only [exponentPart] at h
    split at h
    · split at h
      · cases h
      · have heq := (Prod.mk.inj (Option.some.inj h)).2
        have hless := length_exponentSign more
        rw [← heq, List.length_drop, List.length_cons]
        omega
    · cases h

theorem number_consumes : Consumes number := by
  intro t a rest h
  simp only [number] at h
  split at h
  · cases h
  · rename_i hwhole
    have hless : ((signed t).2.drop (wholePart (signed t).2).length).length < t.length := by
      have hsigned := length_signed t
      have hpos : 0 < (wholePart (signed t).2).length := List.length_pos_of_ne_nil hwhole
      have hne : 0 < (signed t).2.length := by
        cases hs : (signed t).2 with
        | nil =>
          rw [hs] at hwhole
          exact absurd rfl hwhole
        | cons c more => exact Nat.succ_pos _
      rw [List.length_drop]
      omega
    have hafter := length_dropFraction ((signed t).2.drop (wholePart (signed t).2).length)
    split at h
    · rename_i exponent more hexponent
      have hrest : more = rest := (Prod.mk.inj (Except.ok.inj h)).2
      have hlength := exponentPart_length hexponent
      rw [← hrest]
      omega
    · split at h
      · split at h
        · rw [← (Prod.mk.inj (Except.ok.inj h)).2]
          exact hless
        · cases h
      · rw [← (Prod.mk.inj (Except.ok.inj h)).2]
        omega

theorem scalar_consumes : Consumes scalar := by
  intro t a rest h
  cases t with
  | nil => cases h
  | cons c more =>
    rw [scalar] at h
    split at h
    · split at h
      · rename_i s left hs
        have hless := string_consumes hs
        cases h
        simp only [List.length_cons]
        omega
      · cases h
    · split at h
      · rename_i word v hword
        have hmem := List.mem_of_find?_eq_some hword
        have hlong : literals.all (fun l => decide (0 < l.1.length)) = true := by decide
        have hpos : 0 < word.length := by simpa using List.all_eq_true.mp hlong _ hmem
        cases h
        rw [List.length_drop, List.length_cons]
        omega
      · exact number_consumes _ _ _ h

section

variable {α : Type} {parse : Text → Except Fault (α × Text)} {close : CodePoint}

theorem elements_consumes (hparse : Consumes parse) (bound : Nat) : Consumes (elements parse close bound) := by
  induction bound with
  | zero =>
    intro t a rest h
    cases h
  | succ bound ih =>
    intro t l rest h
    rw [elements] at h
    cases hp : parse t with
    | error e =>
      rw [hp] at h
      cases h
    | ok p =>
      obtain ⟨a, after⟩ := p
      have hfirst := hparse t a after hp
      have hskip := length_skip after
      rw [hp, ok_bind] at h
      simp only at h
      cases hs : skip after with
      | nil =>
        rw [hs] at h
        cases h
      | cons c more =>
        rw [hs] at h hskip
        simp only at h
        simp only [List.length_cons] at hskip
        split at h
        · cases h
          omega
        · split at h
          · cases hr : elements parse close bound (skip more) with
            | error e =>
              rw [hr] at h
              cases h
            | ok q =>
              obtain ⟨l', left⟩ := q
              have hrest := ih _ _ _ hr
              have hmore := length_skip more
              rw [hr, ok_bind] at h
              have hleft : left = rest := (Prod.mk.inj (Except.ok.inj h)).2
              rw [← hleft]
              omega
          · cases h

/-- A larger bound on the parts changes nothing. -/
theorem elements_bound (hparse : Consumes parse) (hnil : parse [] = .error .malformed) (bound more : Nat)
    (t : Text) (ht : t.length ≤ bound) :
    elements parse close (bound + more) t = elements parse close bound t := by
  induction bound generalizing t with
  | zero =>
    have hempty : t = [] := List.length_eq_zero_iff.mp (by omega)
    rw [hempty]
    cases more with
    | zero => rfl
    | succ more =>
      have hsucc : 0 + (more + 1) = more + 1 := by omega
      rw [hsucc]
      simp only [elements, hnil]
      rfl
  | succ bound ih =>
    have hsucc : bound + 1 + more = (bound + more) + 1 := by omega
    rw [hsucc, elements, elements]
    cases hp : parse t with
    | error e => rfl
    | ok p =>
      obtain ⟨a, after⟩ := p
      have hfirst := hparse t a after hp
      have hskip := length_skip after
      simp only [ok_bind]
      cases hs : skip after with
      | nil => rfl
      | cons c rest =>
        rw [hs, List.length_cons] at hskip
        have hmore := length_skip rest
        simp only
        rw [ih (skip rest) (by omega)]

end

theorem container_consumes {α : Type} {parse : Text → Except Fault (α × Text)} {close : CodePoint}
    (hparse : Consumes parse) : Consumes (container parse close) := by
  intro t l rest h
  have hskip := length_skip t
  rw [container] at h
  split at h
  · cases h
  · rename_i c more hs
    rw [hs, List.length_cons] at hskip
    split at h
    · cases h
      omega
    · have hless := elements_consumes hparse _ _ _ _ h
      rw [List.length_cons] at hless
      omega

theorem member_consumes {parse : Text → Except Fault (Value × Text)} (hparse : Consumes parse) :
    Consumes (member parse) := by
  intro t f rest h
  cases t with
  | nil => cases h
  | cons c more =>
    rw [member] at h
    split at h
    · split at h
      · cases h
      · rename_i key left hkey
        have hstring := string_consumes hkey
        have hskip := length_skip left
        split at h
        · cases h
        · rename_i d after hs
          rw [hs, List.length_cons] at hskip
          split at h
          · cases hp : parse (skip after) with
            | error e =>
              rw [hp] at h
              cases h
            | ok p =>
              obtain ⟨v, last⟩ := p
              have hvalue := hparse _ _ _ hp
              have hafter := length_skip after
              rw [hp, ok_bind] at h
              cases h
              rw [List.length_cons]
              omega
          · cases h
    · cases h

theorem value_consumes (depth : Nat) : Consumes (value depth) := by
  induction depth with
  | zero =>
    intro t v rest h
    cases t with
    | nil => cases h
    | cons c more =>
      rw [value] at h
      split at h
      · cases h
      · exact scalar_consumes _ _ _ h
  | succ depth ih =>
    intro t v rest h
    cases t with
    | nil => cases h
    | cons c more =>
      rw [value] at h
      split at h
      · cases hc : container (value depth) (code ']') more with
        | error e =>
          rw [hc] at h
          cases h
        | ok p =>
          have hless := container_consumes ih _ _ _ hc
          rw [hc, ok_bind] at h
          cases h
          rw [List.length_cons]
          omega
      · split at h
        · cases hc : container (member (value depth)) (code '\x7d') more with
          | error e =>
            rw [hc] at h
            cases h
          | ok p =>
            have hless := container_consumes (member_consumes ih) _ _ _ hc
            rw [hc, ok_bind] at h
            cases h
            rw [List.length_cons]
            omega
        · exact scalar_consumes _ _ _ h

/-- A larger bound on the parts of a container changes nothing for `loads`. -/
theorem value_bound (depth more : Nat) (close : CodePoint) (t : Text) :
    elements (value depth) close (t.length + more) t = elements (value depth) close t.length t ∧
    elements (member (value depth)) close (t.length + more) t =
      elements (member (value depth)) close t.length t := by
  have hvalue : value depth [] = .error .malformed := by cases depth <;> rfl
  exact ⟨elements_bound (value_consumes depth) hvalue _ more t (Nat.le_refl _),
    elements_bound (member_consumes (value_consumes depth)) rfl _ more t (Nat.le_refl _)⟩

end Json
