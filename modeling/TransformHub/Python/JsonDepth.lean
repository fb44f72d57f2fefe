import TransformHub.Python.JsonRoundTrip

/-!
# How deep the decoder goes

What the decoder reads of an encoded value is nested no deeper than its own recursion may go.
-/

namespace TransformHub.Python

section Items

variable {α : Type} {item : List Char → Except Error (α × List Char)} {close : Char}

theorem skipWhitespace_of_readsBy (hstarts : Starts item) {t : Text} {a : α} {cs : List Char}
    (h : ReadsBy item t a) (ht : t = ofChars cs) (rest : List Char) :
    skipWhitespace (cs ++ rest) = cs ++ rest := by
  cases cs with
  | nil =>
    have hread := h [] [']'] ht (delimited_cons (.inr (.inl rfl)) [])
    rw [List.nil_append, hstarts ']' [] (.inr (.inl rfl))] at hread
    cases hread
  | cons c cs =>
    have hread := h (c :: cs) [] ht delimited_nil
    have hskip := skipWhitespace_of_item hstarts hread
    have hc : isWhitespace c = false := by
      by_contra hc
      rw [Bool.not_eq_false] at hc
      rw [List.cons_append, hstarts c _ (.inl hc)] at hread
      cases hread
    simp [skipWhitespace, hc]

theorem ok_of_scanItems {n : ℕ} {s : List Char} {x : List α × List Char}
    (h : scanItems item close n s = .ok x) : ∃ y, item s = .ok y := by
  cases n with
  | zero => cases h
  | succ n =>
    unfold scanItems at h
    cases hitem : item s with
    | ok y => exact ⟨y, rfl⟩
    | error e =>
      rw [hitem] at h
      cases h

theorem ok_of_scanItems_comma (hclose : close = ']' ∨ close = '}') {n : ℕ} {t : Text} {a : α}
    {cs s : List Char} {x : List α × List Char} (ht : ReadsBy item t a) (hcs : t = ofChars cs)
    (h : scanItems item close n (cs ++ ',' :: s) = .ok x) :
    ∃ n y, scanItems item close n (skipWhitespace s) = .ok y := by
  cases n with
  | zero => cases h
  | succ n =>
    have hcomma : (',' : Char) ≠ close := by rcases hclose with rfl | rfl <;> decide
    have hread := ht cs (',' :: s) hcs (delimited_cons (.inl rfl) s)
    unfold scanItems at h
    simp only [hread, bind, Except.bind, @skipWhitespace_delimiter ',' (.inl rfl),
      List.head?_cons, Option.some.injEq, if_neg hcomma, if_true, List.tail_cons] at h
    cases hnext : scanItems item close n (skipWhitespace s) with
    | ok y => exact ⟨n, y, hnext⟩
    | error e =>
      rw [hnext] at h
      cases h

theorem ok_of_scanBody {s : List Char} {x : List α × List Char} (hskip : skipWhitespace s = s)
    (hhead : s.head? ≠ some close) (h : scanBody item close s = .ok x) :
    ∃ n y, scanItems item close n s = .ok y := by
  unfold scanBody at h
  simp only [hskip, if_neg hhead] at h
  exact ⟨_, x, h⟩

end Items

section Values

variable {F : Type} {fl : Floats F}

theorem ok_of_scanPair {scan : List Char → Except Error (Value F × List Char)}
    {ds s : List Char} {x : (Text × Value F) × List Char} (hskip : skipWhitespace s = s)
    (h : scanPair scan ('"' :: (escapeChars ds ++ '"' :: ':' :: s)) = .ok x) :
    ∃ y, scan s = .ok y := by
  have hcolon : skipWhitespace (':' :: s) = ':' :: s := rfl
  unfold scanPair at h
  rw [if_pos List.head?_cons] at h
  simp only [List.tail_cons, scanString_escapeChars, bind, Except.bind, hcolon, List.head?_cons,
    if_true, hskip] at h
  cases hscan : scan s with
  | ok y => exact ⟨y, rfl⟩
  | error e =>
    rw [hscan] at h
    cases h

theorem head?_of_readsBy {α : Type} {item : List Char → Except Error (α × List Char)}
    {close : Char} (hstarts : Starts item) (hclose : close = ']' ∨ close = '}') {t : Text} {a : α}
    {cs : List Char} (h : ReadsBy item t a) (ht : t = ofChars cs) (rest : List Char) :
    (cs ++ rest).head? ≠ some close := by
  cases cs with
  | nil =>
    have hread := h [] [']'] ht (delimited_cons (.inr (.inl rfl)) [])
    rw [List.nil_append, hstarts ']' [] (.inr (.inl rfl))] at hread
    cases hread
  | cons c cs =>
    intro hc
    cases hc
    have hread := h (close :: cs) [] ht delimited_nil
    rw [List.cons_append, hstarts close _ (.inr hclose)] at hread
    cases hread

theorem joined_cons_eq {t t' : Text} {ts : List Text} {cs : List Char}
    (h : joined (t :: t' :: ts) = ofChars cs) :
    ∃ as bs, cs = as ++ ',' :: bs ∧ t = ofChars as ∧ joined (t' :: ts) = ofChars bs := by
  obtain ⟨as₁, bs, rfl, has₁, hbs⟩ := append_eq_ofChars
    (show (t ++ ofChars [',']) ++ joined (t' :: ts) = ofChars cs from h)
  obtain ⟨as, rfl, has⟩ := append_chars_eq has₁
  exact ⟨as, bs, by simp, has, hbs⟩

theorem head_joined {t : Text} {ts : List Text} {cs : List Char}
    (h : joined (t :: ts) = ofChars cs) : ∃ as bs, cs = as ++ bs ∧ t = ofChars as := by
  cases ts with
  | nil => exact ⟨cs, [], (List.append_nil cs).symm, h⟩
  | cons t' ts =>
    obtain ⟨as, bs, rfl, has, -⟩ := joined_cons_eq h
    exact ⟨as, ',' :: bs, rfl, has⟩

theorem ok_of_scanBody_joined {α : Type} {item item' : List Char → Except Error (α × List Char)}
    {close : Char} (hstarts : Starts item') (hclose : close = ']' ∨ close = '}') {t : Text}
    {ts : List Text} {a : α} (ht : ReadsBy item' t a) {cs rest : List Char}
    {x : List α × List Char} (hcs : joined (t :: ts) = ofChars cs)
    (h : scanBody item close (cs ++ close :: rest) = .ok x) :
    ∃ n y, scanItems item close n (cs ++ close :: rest) = .ok y := by
  obtain ⟨as, bs, rfl, has⟩ := head_joined hcs
  rw [List.append_assoc] at h ⊢
  exact ok_of_scanBody (skipWhitespace_of_readsBy hstarts ht has _)
    (head?_of_readsBy hstarts hclose ht has _) h

theorem ok_of_scanItems_joined {α : Type} {item item' : List Char → Except Error (α × List Char)}
    {close : Char} (hstarts : Starts item') (hclose : close = ']' ∨ close = '}')
    {t t' : Text} {ts : List Text} {a a' : α} (ht : ReadsBy item t a) (ht' : ReadsBy item' t' a')
    {as bs rest : List Char} {n : ℕ} {x : List α × List Char} (has : t = ofChars as)
    (hbs : joined (t' :: ts) = ofChars bs)
    (h : scanItems item close n (as ++ ',' :: (bs ++ close :: rest)) = .ok x) :
    ∃ n y, scanItems item close n (bs ++ close :: rest) = .ok y := by
  obtain ⟨m, y, hy⟩ := ok_of_scanItems_comma hclose ht has h
  obtain ⟨bs₁, bs₂, rfl, hbs₁⟩ := head_joined hbs
  rw [List.append_assoc, skipWhitespace_of_readsBy hstarts ht' hbs₁] at hy
  rw [List.append_assoc]
  exact ⟨m, y, hy⟩

mutual

theorem fault_of_scanOnce : ∀ (depth depth' : ℕ) (v : Value F), fault depth v = none →
    ∀ (cs rest : List Char) (x : Value F × List Char), v.text fl = ofChars cs → Delimited rest →
      scanOnce fl depth' (cs ++ rest) = .ok x → fault depth' v = none
  | _, _, .none, _, _, _, _, _, _, _ => rfl
  | _, _, .bool _, _, _, _, _, _, _, _ => rfl
  | _, _, .int i, h, _, _, _, _, _, _ => by
      rw [fault] at h ⊢
      exact h
  | _, _, .float _, _, _, _, _, _, _, _ => rfl
  | _, _, .nonFinite, h, _, _, _, _, _, _ => by cases h
  | _, _, .str _, _, _, _, _, _, _, _ => rfl
  | 0, _, .list _, h, _, _, _, _, _, _ => by cases h
  | depth + 1, depth', .list elems, h, cs, rest, x, hcs, _, hscan => by
      have ih := fun depth' => faultElems_of_scanItems depth depth' elems
      rw [Value.text] at hcs
      obtain ⟨as, rfl, has⟩ := append_chars_eq hcs
      obtain ⟨bs, rfl, hbs⟩ := chars_append_eq has
      have htext : ['['] ++ bs ++ [']'] ++ rest = '[' :: (bs ++ ']' :: rest) := by simp
      rw [htext] at hscan
      cases depth' with
      | zero => cases hscan
      | succ depth' =>
        unfold scanOnce at hscan
        rw [if_pos List.head?_cons, List.tail_cons] at hscan
        rw [fault]
        rw [fault] at h
        cases hbody : scanBody (scanOnce fl depth') ']' (bs ++ ']' :: rest) with
        | error e =>
          rw [hbody] at hscan
          cases hscan
        | ok y => exact ih depth' h bs rest (.inl ⟨y, hbody⟩) hbs
  | 0, _, .dict _, h, _, _, _, _, _, _ => by cases h
  | depth + 1, depth', .dict items, h, cs, rest, x, hcs, _, hscan => by
      have ih := fun depth' => faultItems_of_scanItems depth depth' items
      rw [Value.text] at hcs
      obtain ⟨as, rfl, has⟩ := append_chars_eq hcs
      obtain ⟨bs, rfl, hbs⟩ := chars_append_eq has
      have htext : ['{'] ++ bs ++ ['}'] ++ rest = '{' :: (bs ++ '}' :: rest) := by simp
      rw [htext] at hscan
      cases depth' with
      | zero => cases hscan
      | succ depth' =>
        unfold scanOnce at hscan
        rw [if_neg (by simp), if_pos List.head?_cons, List.tail_cons] at hscan
        rw [fault]
        rw [fault] at h
        cases hbody : scanBody (scanPair (scanOnce fl depth')) '}' (bs ++ '}' :: rest) with
        | error e =>
          rw [hbody] at hscan
          cases hscan
        | ok y => exact ih depth' h bs rest (.inl ⟨y, hbody⟩) hbs
  | 0, _, .circular, h, _, _, _, _, _, _ => by cases h
  | _ + 1, _, .circular, h, _, _, _, _, _, _ => by cases h
  | _, _, .other _, h, _, _, _, _, _, _ => by cases h
termination_by structural _ _ v => v

theorem faultElems_of_scanItems : ∀ (depth depth' : ℕ) (vs : List (Value F)),
    faultElems depth vs = none → ∀ (cs rest : List Char),
      ((∃ x, scanBody (scanOnce fl depth') ']' (cs ++ ']' :: rest) = .ok x) ∨
        ∃ n x, scanItems (scanOnce fl depth') ']' n (cs ++ ']' :: rest) = .ok x) →
      joined (textElems fl vs) = ofChars cs → faultElems depth' vs = none
  | _, _, [], _, _, _, _, _ => rfl
  | depth, depth', v :: vs, h, cs, rest, hscan, hcs => by
      rw [faultElems, Option.or_eq_none_iff] at h
      have ihv := fault_of_scanOnce depth depth' v h.1
      have ihvs := faultElems_of_scanItems depth depth' vs h.2
      obtain ⟨w, hw⟩ : ∃ w, ReadsBy (scanOnce fl depth) (v.text fl) w :=
        readsBy_text depth v h.1
      rw [textElems] at hcs
      have hloop : ∃ n x, scanItems (scanOnce fl depth') ']' n (cs ++ ']' :: rest) = .ok x := by
        rcases hscan with ⟨x, hx⟩ | hloop
        · exact ok_of_scanBody_joined (starts_scanOnce depth) (.inl rfl) hw hcs hx
        · exact hloop
      obtain ⟨n, x, hx⟩ := hloop
      obtain ⟨y, hy⟩ := ok_of_scanItems hx
      rw [faultElems, Option.or_eq_none_iff]
      cases vs with
      | nil => exact ⟨ihv cs _ y hcs (delimited_cons (.inr (.inl rfl)) rest) hy, rfl⟩
      | cons v' vs =>
        obtain ⟨as, bs, rfl, has, hbs⟩ := joined_cons_eq hcs
        rw [List.append_assoc, List.cons_append] at hx hy
        have hv := ihv as _ y has (delimited_cons (.inl rfl) _) hy
        obtain ⟨w₁, hw₁⟩ : ∃ w, ReadsBy (scanOnce fl depth') (v.text fl) w :=
          readsBy_text depth' v hv
        rw [faultElems, Option.or_eq_none_iff] at h
        obtain ⟨w', hw'⟩ : ∃ w, ReadsBy (scanOnce fl depth) (v'.text fl) w :=
          readsBy_text depth v' h.2.1
        have hrest := ok_of_scanItems_joined (starts_scanOnce depth) (.inl rfl) hw₁ hw' has hbs hx
        exact ⟨hv, ihvs bs rest (.inr hrest) hbs⟩
termination_by structural _ _ vs => vs

theorem faultItems_of_scanItems : ∀ (depth depth' : ℕ) (items : List (Key F × Value F)),
    faultItems depth items = none → ∀ (cs rest : List Char),
      ((∃ x, scanBody (scanPair (scanOnce fl depth')) '}' (cs ++ '}' :: rest) = .ok x) ∨
        ∃ n x, scanItems (scanPair (scanOnce fl depth')) '}' n (cs ++ '}' :: rest) = .ok x) →
      joined (textItems fl items) = ofChars cs → faultItems depth' items = none
  | _, _, [], _, _, _, _, _ => rfl
  | depth, depth', (k, v) :: items, h, cs, rest, hscan, hcs => by
      rw [faultItems, Option.or_eq_none_iff, Option.or_eq_none_iff] at h
      have ihv := fault_of_scanOnce depth depth' v h.2.1
      have ihitems := faultItems_of_scanItems depth depth' items h.2.2
      obtain ⟨w, hw⟩ : ∃ w, ReadsBy (scanOnce fl depth) (v.text fl) w :=
        readsBy_text depth v h.2.1
      have hpair : ReadsBy (scanPair (scanOnce fl depth))
          (quote (k.text fl) ++ ofChars [':'] ++ v.text fl) (k.text fl, w) :=
        readsBy_pair (starts_scanOnce depth) hw
      rw [textItems] at hcs
      have hloop :
          ∃ n x, scanItems (scanPair (scanOnce fl depth')) '}' n (cs ++ '}' :: rest) = .ok x := by
        rcases hscan with ⟨x, hx⟩ | hloop
        · exact ok_of_scanBody_joined (starts_scanPair _) (.inr rfl) hpair hcs hx
        · exact hloop
      obtain ⟨n, x, hx⟩ := hloop
      obtain ⟨y, hy⟩ := ok_of_scanItems hx
      -- the value of the first item is read
      have hvalue : ∀ (as s : List Char) (y : (Text × Value F) × List Char),
          quote (k.text fl) ++ ofChars [':'] ++ v.text fl = ofChars as → Delimited s →
          scanPair (scanOnce fl depth') (as ++ s) = .ok y → fault depth' v = none := by
        intro as s y has hs hy
        obtain ⟨ks, vs, rfl, hks, hvs⟩ := append_eq_ofChars has
        obtain ⟨qs, rfl, hqs⟩ := append_chars_eq hks
        obtain ⟨ds, -, rfl⟩ := quote_eq_ofChars hqs
        have htext : '"' :: (escapeChars ds ++ ['"']) ++ [':'] ++ vs ++ s =
            '"' :: (escapeChars ds ++ '"' :: ':' :: (vs ++ s)) := by
          simp
        rw [htext] at hy
        have hskip := skipWhitespace_of_readsBy (starts_scanOnce depth) hw hvs s
        obtain ⟨z, hz⟩ := ok_of_scanPair hskip hy
        exact ihv vs s z hvs hs hz
      rw [faultItems, Option.or_eq_none_iff, Option.or_eq_none_iff]
      cases items with
      | nil => exact ⟨h.1, hvalue cs _ y hcs (delimited_cons (.inr (.inr rfl)) rest) hy, rfl⟩
      | cons item items =>
        obtain ⟨k', v'⟩ := item
        obtain ⟨as, bs, rfl, has, hbs⟩ := joined_cons_eq hcs
        rw [List.append_assoc, List.cons_append] at hx hy
        have hv := hvalue as _ y has (delimited_cons (.inl rfl) _) hy
        obtain ⟨w₁, hw₁⟩ : ∃ w, ReadsBy (scanOnce fl depth') (v.text fl) w :=
          readsBy_text depth' v hv
        have hpair₁ : ReadsBy (scanPair (scanOnce fl depth'))
            (quote (k.text fl) ++ ofChars [':'] ++ v.text fl) (k.text fl, w₁) :=
          readsBy_pair (starts_scanOnce depth') hw₁
        rw [faultItems, Option.or_eq_none_iff, Option.or_eq_none_iff] at h
        obtain ⟨w', hw'⟩ : ∃ w, ReadsBy (scanOnce fl depth) (v'.text fl) w :=
          readsBy_text depth v' h.2.2.2.1
        have hpair' : ReadsBy (scanPair (scanOnce fl depth))
            (quote (k'.text fl) ++ ofChars [':'] ++ v'.text fl) (k'.text fl, w') :=
          readsBy_pair (starts_scanOnce depth) hw'
        have hrest :=
          ok_of_scanItems_joined (starts_scanPair _) (.inr rfl) hpair₁ hpair' has hbs hx
        exact ⟨h.1, hv, ihitems bs rest (.inr hrest) hbs⟩
termination_by structural _ _ items => items

end

end Values

end TransformHub.Python
