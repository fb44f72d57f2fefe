import TransformHub.ApiRouter.Verser2Matching

/-!
# The round trip of path templates

A template is filled by its segments: a segment `:name` stands for the encoded value of its
parameter, all others for themselves.
-/

namespace TransformHub.ApiRouter

open Js OrderedMap

/-! ## Filled templates -/

def placeholder? (segment : List Char) : Option (List Char) :=
  match parameter? segment with
  | some (name, false) => some name
  | _ => none

def placeholders (template : List Char) : List (List Char) :=
  (template.splitOn '/').filterMap placeholder?

def fillSegment (values : List (List Char × List Char)) (segment : List Char) : List Char :=
  match placeholder? segment with
  | none => segment
  | some name => (lookupEntry name values).getD segment

def fill (values : List (List Char × List Char)) (template : List Char) : List Char :=
  ['/'].intercalate ((template.splitOn '/').map (fillSegment values))

/-- A parameter with its encoded value. -/
def escaped (e : List Char × List CodePoint) : List Char × List Char :=
  (e.1, ((CodePoint.chars? e.2).getD []).flatMap escapeChar)

/-- `:name` is found at the placeholder of that name and nowhere before it, and there is one such
placeholder; a parameter that has no placeholder is not found. -/
structure Own (values : List (List Char × List Char)) (name template : List Char) : Prop where
  first : name ∈ placeholders template → ∃ gs gs',
    template.splitOn '/' = gs ++ (':' :: name) :: gs' ∧ ':' :: name ∉ gs' ∧
      ∀ g ∈ gs, ¬ ':' :: name <:+: fillSegment values g
  absent : name ∉ placeholders template → ¬ ':' :: name <:+: fill values template

/-! ## Segments -/

theorem parameter?_eq_some {g name : List Char} (h : parameter? g = some (name, false)) :
    g = ':' :: name ∧ name ≠ [] ∧ ∀ c ∈ name, isWordChar c = true := by
  unfold parameter? at h
  split at h
  · rename_i rest
    split_ifs at h with htake hdrop hoptional
    · cases h
      have hall := List.dropWhile_eq_nil_iff.mp hdrop
      have hrest : rest.takeWhile isWordChar = rest := List.takeWhile_eq_self_iff.mpr hall
      rw [hrest] at htake ⊢
      exact ⟨rfl, htake, hall⟩
    · cases h
  · cases h

theorem parameter?_of_name {name : List Char} (hne : name ≠ [])
    (hword : ∀ c ∈ name, isWordChar c = true) : parameter? (':' :: name) = some (name, false) := by
  have hdrop := List.dropWhile_eq_nil_iff.mpr hword
  have htake := List.takeWhile_eq_self_iff.mpr hword
  simp only [parameter?, hdrop, htake, if_neg hne, if_true]

theorem placeholder?_eq_some_iff {g name : List Char} :
    placeholder? g = some name ↔ g = ':' :: name ∧ name ≠ [] ∧ ∀ c ∈ name, isWordChar c = true := by
  unfold placeholder?
  constructor
  · intro h
    split at h
    · cases h
      exact parameter?_eq_some ‹_›
    · cases h
  · rintro ⟨rfl, hne, hword⟩
    rw [parameter?_of_name hne hword]

theorem mem_placeholders_iff {template name : List Char} : name ∈ placeholders template ↔
    ':' :: name ∈ template.splitOn '/' ∧ name ≠ [] ∧ ∀ c ∈ name, isWordChar c = true := by
  unfold placeholders
  rw [List.mem_filterMap]
  constructor
  · rintro ⟨g, hmem, hg⟩
    obtain ⟨rfl, hname⟩ := placeholder?_eq_some_iff.mp hg
    exact ⟨hmem, hname⟩
  · rintro ⟨hmem, hname⟩
    exact ⟨_, hmem, placeholder?_eq_some_iff.mpr ⟨rfl, hname⟩⟩

/-! ## One replacement -/

section Replacement

variable {values : List (List Char × List Char)} {name value template g : List Char}

/-- Encoded values do not have the characters that structure paths. -/
def Plain (value : List Char) : Prop := ':' ∉ value ∧ '/' ∉ value ∧ '$' ∉ value ∧ '?' ∉ value

theorem plain_escape (text : List Char) : Plain (text.flatMap escapeChar) := by
  have hnot : ∀ c : Char, isUnreserved c = false → c ≠ '%' → c ∉ text.flatMap escapeChar := by
    intro c hc hne hmem
    rcases mem_escape hmem with h | h
    · rw [hc] at h
      cases h
    · exact hne h
  exact ⟨hnot _ (by decide) (by decide), hnot _ (by decide) (by decide),
    hnot _ (by decide) (by decide), hnot _ (by decide) (by decide)⟩

theorem lookupEntry_append (name : List Char) (values values' : List (List Char × List Char)) :
    lookupEntry name (values ++ values') =
      (lookupEntry name values).or (lookupEntry name values') := by
  induction values with
  | nil => rfl
  | cons e values ih =>
    obtain ⟨k, a⟩ := e
    rw [List.cons_append, lookupEntry, lookupEntry]
    split_ifs
    · rfl
    · exact ih

theorem lookupEntry_eq_none (h : name ∉ values.map Prod.fst) : lookupEntry name values = none := by
  rw [← Option.not_isSome_iff_eq_none, ← mem_keys_iff_lookupEntry]
  exact h

theorem fillSegment_append (h : name ∉ values.map Prod.fst) (g : List Char) :
    fillSegment (values ++ [(name, value)]) g =
      if placeholder? g = some name then value else fillSegment values g := by
  unfold fillSegment
  cases hg : placeholder? g with
  | none => simp
  | some name' =>
    by_cases hname : name' = name
    · subst hname
      simp [lookupEntry_append, lookupEntry_eq_none h, lookupEntry]
    · simp [lookupEntry_append, lookupEntry, hname, Ne.symm hname]

theorem fillSegment_own (hname : name ≠ [] ∧ ∀ c ∈ name, isWordChar c = true)
    (h : name ∉ values.map Prod.fst) : fillSegment values (':' :: name) = ':' :: name := by
  rw [fillSegment, placeholder?_eq_some_iff.mpr ⟨rfl, hname⟩]
  simp [lookupEntry_eq_none h]

theorem mem_of_lookupEntry (h : lookupEntry name values = some value) : (name, value) ∈ values := by
  induction values with
  | nil => cases h
  | cons e values ih =>
    obtain ⟨k, a⟩ := e
    rw [lookupEntry] at h
    split_ifs at h with hk
    · cases h
      rw [hk]
      exact List.mem_cons_self
    · exact List.mem_cons_of_mem _ (ih h)

theorem notMem_fillSegment (hvalues : ∀ e ∈ values, '/' ∉ e.2) (hg : '/' ∉ g) :
    '/' ∉ fillSegment values g := by
  unfold fillSegment
  split
  · exact hg
  · rename_i name' _
    cases hlookup : lookupEntry name' values with
    | none => exact hg
    | some value' => exact hvalues _ (mem_of_lookupEntry hlookup)

theorem replace_fill_eq_iff (hvalues : ∀ e ∈ values, '/' ∉ e.2) (hvalue : Plain value)
    (hword : ∀ c ∈ name, isWordChar c = true) :
    replace (fill values template) (':' :: name) value =
        fill (values ++ [(name, value)]) template ↔
      replaceIn (':' :: name) value ((template.splitOn '/').map (fillSegment values)) =
        (template.splitOn '/').map (fillSegment (values ++ [(name, value)])) := by
  have hslash : '/' ∉ ':' :: name := by
    rw [List.mem_cons, not_or]
    refine ⟨by decide, fun hmem => ?_⟩
    have hbad := hword _ hmem
    exact absurd hbad (by decide)
  have hne : (template.splitOn '/') ≠ [] := List.splitOn_ne_nil _ _
  have hfilled : ∀ vs : List (List Char × List Char), (∀ e ∈ vs, '/' ∉ e.2) →
      ∀ g ∈ (template.splitOn '/').map (fillSegment vs), '/' ∉ g := by
    intro vs hvs g hg
    obtain ⟨g', hg', rfl⟩ := List.mem_map.mp hg
    exact notMem_fillSegment hvs (notMem_of_mem_splitOn hg')
  rw [fill, fill, replace_intercalate hslash hvalue.2.2.1 (by simp)]
  refine intercalate_inj (replaceIn_ne_nil (by simp)) (by simp) ?_ ?_
  · exact notMem_replaceIn hvalue.2.2.1 (hfilled values hvalues) hvalue.2.1
  · refine hfilled _ fun e he => ?_
    rcases List.mem_append.mp he with he | he
    · exact hvalues e he
    · rw [List.mem_singleton.mp he]
      exact hvalue.2.1

theorem replace_fill_iff (hvalues : ∀ e ∈ values, '/' ∉ e.2) (hvalue : Plain value)
    (hnew : name ∉ values.map Prod.fst) :
    replace (fill values template) (':' :: name) value =
      fill (values ++ [(name, value)]) template ↔ Own values name template := by
  have hne : value ≠ ':' :: name := by
    rintro rfl
    exact hvalue.1 List.mem_cons_self
  by_cases hplaceholder : name ∈ placeholders template
  · obtain ⟨hmem, hname⟩ := mem_placeholders_iff.mp hplaceholder
    have hown : fillSegment values (':' :: name) = ':' :: name := fillSegment_own hname hnew
    have hown' : fillSegment (values ++ [(name, value)]) (':' :: name) = value := by
      rw [fillSegment_append hnew, if_pos (placeholder?_eq_some_iff.mpr ⟨rfl, hname⟩)]
    have hother : ∀ g, g ≠ ':' :: name →
        fillSegment (values ++ [(name, value)]) g = fillSegment values g := by
      intro g hg
      rw [fillSegment_append hnew, if_neg]
      exact fun h => hg (placeholder?_eq_some_iff.mp h).1
    have hsame : ∀ gs : List (List Char), ':' :: name ∉ gs →
        gs.map (fillSegment (values ++ [(name, value)])) = gs.map (fillSegment values) := by
      intro gs hgs
      refine List.map_congr_left fun g hg => hother g ?_
      rintro rfl
      exact hgs hg
    rw [replace_fill_eq_iff hvalues hvalue hname.2]
    constructor
    · intro heq
      refine ⟨fun _ => ?_, fun h => absurd hplaceholder h⟩
      obtain ⟨gs, gs', hsegments, hfirst⟩ := List.eq_append_cons_of_mem hmem
      rw [hsegments, List.map_append, List.map_append, List.map_cons, List.map_cons, hown, hown',
        hsame gs hfirst] at heq
      by_cases hearly : ∃ g ∈ gs.map (fillSegment values), ':' :: name <:+: g
      -- the placeholder itself would stay
      · obtain ⟨gs'', hlength, hreplaced⟩ := replaceIn_early (r := value) hearly
          ((':' :: name) :: gs'.map (fillSegment values))
        rw [hreplaced] at heq
        exact absurd (List.cons.inj (List.append_inj_right heq hlength)).1.symm hne
      · push Not at hearly
        rw [replaceIn_skip hearly] at heq
        rw [replaceIn_self hvalue.2.2.1 (List.cons_ne_nil _ _)] at heq
        have htail := (List.cons.inj (List.append_cancel_left heq)).2
        refine ⟨gs, gs', hsegments, fun hagain => ?_, fun g hg => hearly _ (List.mem_map_of_mem hg)⟩
        -- a second placeholder would not be filled
        have hsecond := List.map_inj_left.mp htail _ hagain
        rw [hown, hown'] at hsecond
        exact hne hsecond.symm
    · intro hfirst
      obtain ⟨gs, gs', hsegments, hlast, hnot⟩ := hfirst.first hplaceholder
      have hfilled : ∀ g ∈ gs.map (fillSegment values), ¬ ':' :: name <:+: g := by
        intro g hg
        obtain ⟨g', hg', rfl⟩ := List.mem_map.mp hg
        exact hnot g' hg'
      have hbefore : ':' :: name ∉ gs := by
        intro hmem
        apply hnot _ hmem
        simp [hown]
      rw [hsegments, List.map_append, List.map_append, List.map_cons, List.map_cons, hown, hown',
        hsame gs hbefore, hsame gs' hlast, replaceIn_skip hfilled,
        replaceIn_self hvalue.2.2.1 (List.cons_ne_nil _ _)]
  · refine Iff.trans ?_ ((replace_eq_self_iff hvalue.2.2.1 hne).trans
      ⟨fun h => ⟨fun hmem => absurd hmem hplaceholder, fun _ => h⟩, fun h => h.absent hplaceholder⟩)
    have hfill : fill (values ++ [(name, value)]) template = fill values template := by
      unfold fill
      refine congrArg _ (List.map_congr_left fun g hg => ?_)
      rw [fillSegment_append hnew, if_neg]
      exact fun h => hplaceholder (List.mem_filterMap.mpr ⟨g, hg, h⟩)
    rw [hfill]

end Replacement

/-! ## All replacements -/

section Entries

variable {es : List (List Char × List CodePoint)} {template : List Char}

theorem encodeURIComponent_eq (e : List Char × List CodePoint) :
    encodeURIComponent e.2 = if CodePoint.chars? e.2 = none then none else some (escaped e).2 := by
  unfold encodeURIComponent escaped
  cases CodePoint.chars? e.2 <;> rfl

theorem materializeEntries_append (e : List Char × List CodePoint) (current : List Char) :
    materializeEntries (es ++ [e]) current = (materializeEntries es current).bind fun path =>
      (encodeURIComponent e.2).map (replace path (':' :: e.1)) := by
  induction es generalizing current with
  | nil =>
    obtain ⟨key, value⟩ := e
    rw [List.nil_append, materializeEntries, materializeEntries, Option.bind_some]
    cases encodeURIComponent value <;> rfl
  | cons e' es ih =>
    obtain ⟨key, value⟩ := e'
    rw [List.cons_append, materializeEntries, materializeEntries]
    cases encodeURIComponent value with
    | none => rfl
    | some encoded => exact ih _

@[simp] theorem fill_nil (template : List Char) : fill [] template = template := by
  have hsegment : fillSegment [] = id := by
    funext g
    unfold fillSegment
    split <;> rfl
  rw [fill, hsegment, List.map_id, List.intercalate_splitOn]

theorem escaped_plain (e : List Char × List CodePoint) : Plain (escaped e).2 := plain_escape _

theorem materializeEntries_fill_iff {e : List Char × List CodePoint}
    (hnew : e.1 ∉ es.map Prod.fst)
    (hpath : materializeEntries es template = some (fill (es.map escaped) template)) :
    materializeEntries (es ++ [e]) template = some (fill ((es ++ [e]).map escaped) template) ↔
      CodePoint.chars? e.2 ≠ none ∧ Own (es.map escaped) e.1 template := by
  have hkeys : e.1 ∉ (es.map escaped).map Prod.fst := by
    rw [List.map_map]
    exact hnew
  have hvalues : ∀ e' ∈ es.map escaped, '/' ∉ e'.2 := by
    intro e' he'
    obtain ⟨e'', -, rfl⟩ := List.mem_map.mp he'
    exact (escaped_plain e'').2.1
  rw [materializeEntries_append, hpath, Option.bind_some, encodeURIComponent_eq, List.map_append]
  by_cases hnone : CodePoint.chars? e.2 = none
  · rw [if_pos hnone]
    refine iff_of_false (fun h => ?_) fun h => h.1 hnone
    cases h
  · rw [if_neg hnone, Option.map_some, Option.some.injEq,
      and_iff_right hnone]
    exact replace_fill_iff hvalues (escaped_plain e) hkeys

theorem materializeEntries_take_iff (hnodup : (es.map Prod.fst).Nodup) :
    (∀ n, materializeEntries (es.take n) template =
        some (fill ((es.take n).map escaped) template)) ↔
      ∀ n e, es[n]? = some e → CodePoint.chars? e.2 ≠ none ∧
        Own ((es.take n).map escaped) e.1 template := by
  have hstep : ∀ n e, es[n]? = some e → materializeEntries (es.take n) template =
      some (fill ((es.take n).map escaped) template) →
      (materializeEntries (es.take (n + 1)) template =
        some (fill ((es.take (n + 1)).map escaped) template) ↔
      CodePoint.chars? e.2 ≠ none ∧ Own ((es.take n).map escaped) e.1 template) := by
    intro n e he hpath
    have htake : es.take (n + 1) = es.take n ++ [e] := by
      rw [List.take_add_one, he]
      rfl
    have hnew : e.1 ∉ (es.take n).map Prod.fst := by
      have hsub : (es.take (n + 1)).map Prod.fst <+: es.map Prod.fst :=
        (List.take_prefix _ _).map _
      have hpart := hsub.sublist.nodup hnodup
      rw [htake, List.map_append, List.nodup_append] at hpart
      exact fun hmem => hpart.2.2 _ hmem _ (List.mem_singleton_self _) rfl
    rw [htake]
    exact materializeEntries_fill_iff hnew hpath
  constructor
  · exact fun hall n e he => (hstep n e he (hall n)).mp (hall (n + 1))
  · intro hown n
    induction n with
    | zero => simp [materializeEntries]
    | succ n ih =>
      cases he : es[n]? with
      | some e => exact (hstep n e he ih).mpr (hown n e he)
      | none =>
        have htake : es.take (n + 1) = es.take n := by
          rw [List.take_add_one, he]
          simp
        rw [htake]
        exact ih

end Entries

/-! ## Matching -/

namespace Verser2RouteRegistry

section Match

variable {parts segments : List (List Char)} {entries : List (List Char × List Char)}

theorem captures_wildcard (hmem : ['*'] ∈ parts) (h : captures parts segments = some entries) :
    ∃ e ∈ entries, e.1 = ['*'] := by
  induction parts generalizing segments entries with
  | nil => cases hmem
  | cons part parts ih =>
    unfold captures at h
    split_ifs at h with hpart
    · cases h
      exact ⟨_, List.mem_cons_self, rfl⟩
    · have hrest := (List.mem_cons.mp hmem).resolve_left (Ne.symm hpart)
      split at h
      · cases h
      · split at h
        · obtain ⟨entries', hentries, rfl⟩ := Option.map_eq_some_iff.mp h
          obtain ⟨e, he, hname⟩ := ih hrest hentries
          exact ⟨e, List.mem_cons_of_mem _ he, hname⟩
        · split_ifs at h
          exact ih hrest h

theorem captures_parts (hnot : ['*'] ∉ parts) (h : captures parts segments = some entries) :
    segments.length = parts.length ∧
      ∀ part ∈ parts, parameter? part = none → part ∈ segments := by
  induction parts generalizing segments entries with
  | nil =>
    unfold captures at h
    split_ifs at h with hsegments
    exact ⟨congrArg _ hsegments, by simp⟩
  | cons part parts ih =>
    rw [List.mem_cons, not_or] at hnot
    unfold captures at h
    rw [if_neg (Ne.symm hnot.1)] at h
    split at h
    · cases h
    · rename_i segment segments
      rw [List.length_cons, List.length_cons, List.forall_mem_cons]
      have hlater (hrest : ∃ entries, captures parts segments = some entries) :
          segments.length + 1 = parts.length + 1 ∧
            ∀ part ∈ parts, parameter? part = none → part ∈ segment :: segments := by
        obtain ⟨_, hrest⟩ := hrest
        obtain ⟨hlength, hliteral⟩ := ih hnot.2 hrest
        exact ⟨congrArg _ hlength, fun part' hmem hnone =>
          List.mem_cons_of_mem _ (hliteral part' hmem hnone)⟩
      split at h
      · rename_i hparameter
        obtain ⟨entries', hentries, -⟩ := Option.map_eq_some_iff.mp h
        exact ⟨(hlater ⟨_, hentries⟩).1, fun hnone => (by rw [hparameter] at hnone; cases hnone),
          (hlater ⟨_, hentries⟩).2⟩
      · split_ifs at h with heq
        exact ⟨(hlater ⟨_, h⟩).1, fun _ => heq ▸ List.mem_cons_self, (hlater ⟨_, h⟩).2⟩

theorem parameter?_eq_none {g : List Char} (hoptional : '?' ∉ g) (h : placeholder? g = none) :
    parameter? g = none := by
  unfold placeholder? at h
  cases hg : parameter? g with
  | none => rfl
  | some parameter =>
    obtain ⟨name, optional⟩ := parameter
    rw [hg] at h
    cases optional with
    | false => cases h
    | true =>
      obtain ⟨rfl, -⟩ := parameter?_optional hg
      exact absurd (by simp) hoptional

theorem parameter?_of_placeholder? {g name : List Char} (h : placeholder? g = some name) :
    parameter? g = some (name, false) := by
  obtain ⟨rfl, hne, hword⟩ := placeholder?_eq_some_iff.mp h
  exact parameter?_of_name hne hword

theorem captures_fill {values : List (List Char × List Char)} {v : List Char → List Char}
    {gs : List (List Char)} (hwildcard : ['*'] ∉ gs) (hoptional : ∀ g ∈ gs, '?' ∉ g)
    (hvalues : ∀ name ∈ gs.filterMap placeholder?,
      v name ≠ [] ∧ lookupEntry name values = some ((v name).flatMap escapeChar)) :
    captures (gs.filter (· ≠ [])) ((gs.map (fillSegment values)).filter (· ≠ [])) =
      some ((gs.filterMap placeholder?).map fun name => (name, (v name).flatMap escapeChar)) := by
  induction gs with
  | nil => rfl
  | cons g gs ih =>
    rw [List.mem_cons, not_or] at hwildcard
    obtain ⟨hg, hfree⟩ := List.forall_mem_cons.mp hoptional
    rw [List.map_cons]
    cases hplaceholder : placeholder? g with
    | none =>
      rw [List.filterMap_cons_none hplaceholder] at hvalues ⊢
      rw [fillSegment, hplaceholder]
      by_cases hnil : g = []
      · rw [List.filter_cons_of_neg (by simp [hnil]), List.filter_cons_of_neg (by simp [hnil])]
        exact ih hwildcard.2 hfree hvalues
      · rw [List.filter_cons_of_pos (by simpa using hnil),
          List.filter_cons_of_pos (by simpa using hnil), captures, if_neg (Ne.symm hwildcard.1),
          parameter?_eq_none hg hplaceholder]
        exact (if_pos rfl).trans (ih hwildcard.2 hfree hvalues)
    | some name =>
      rw [List.filterMap_cons_some hplaceholder] at hvalues ⊢
      obtain ⟨⟨hne, hvalue⟩, hrestValues⟩ := List.forall_mem_cons.mp hvalues
      have hfilled : fillSegment values g = (v name).flatMap escapeChar := by
        simp only [fillSegment, hplaceholder, hvalue, Option.getD_some]
      have hnil : g ≠ [] := by
        obtain ⟨rfl, -⟩ := placeholder?_eq_some_iff.mp hplaceholder
        exact List.cons_ne_nil _ _
      have hkept : (v name).flatMap escapeChar ≠ [] := escape_eq_nil_iff.not.mpr hne
      rw [hfilled, List.filter_cons_of_pos (by simpa using hnil),
        List.filter_cons_of_pos (by exact decide_eq_true hkept), captures, if_neg (Ne.symm hwildcard.1),
        parameter?_of_placeholder? hplaceholder]
      dsimp only
      rw [ih hwildcard.2 hfree hrestValues]
      rfl

end Match

theorem dispatch_singleton {registration : Verser2RouteRegistration} {method : List Char}
    (hmethod : toUpperCase method = registration.method.upper.toList) {path pathname : List Char}
    {decoded : OrderedMap (List Char) (List Char)} :
    dispatch [registration] method path = .handled registration pathname decoded ↔
      pathname = path.takeWhile (· ≠ '?') ∧
        matchPath registration.fullPath (path.takeWhile (· ≠ '?')) = some (.matched decoded) := by
  simp only [dispatch]
  generalize path.takeWhile (· ≠ '?') = pathname'
  cases hmatch : matchPath registration.fullPath pathname' with
  | none => simp [hmatch]
  | some result =>
    cases result with
    | malformedEncoding => simp [hmatch]
    | matched params => simp [hmatch, hmethod, eq_comm]

end Verser2RouteRegistry

/-! ## Round trips -/

section RoundTrip

open Verser2RouteRegistry

variable {registration : Verser2RouteRegistration} {params : Params}

/-- The parameters are filled in one by one, each in its placeholder, and a registry that holds the
template handles the path with the parameters of the placeholders. -/
structure RoundTrips (registration : Verser2RouteRegistration) (params : Params) : Prop where
  replaced : ∀ n, materializeEntries (params.entries.take n) registration.fullPath =
    some (fill ((params.entries.take n).map escaped) registration.fullPath)
  matched : ∀ registry, register [] registration = .ok registry →
    ∀ method, toUpperCase method = registration.method.upper.toList → ∃ path pathname decoded,
      materializePath registration.fullPath (some params) = some path ∧
      dispatch registry method path = .handled registration pathname decoded ∧
      ∀ name, decoded.get? name = if name ∈ placeholders registration.fullPath then
        (params.get? name).bind CodePoint.chars? else none

/-- Every parameter can be encoded and finds its own placeholder; for a template that can be
registered, it has no question mark and no wildcard, no placeholder has the name of the prototype,
and none has an empty value. -/
structure Clear (registration : Verser2RouteRegistration) (params : Params) : Prop where
  encodable : ∀ e ∈ params.entries, ∀ p ∈ e.2, p.isSurrogate = false
  own : ∀ n e, params.entries[n]? = some e →
    Own ((params.entries.take n).map escaped) e.1 registration.fullPath
  matched : ∀ registry, register [] registration = .ok registry →
    '?' ∉ registration.fullPath ∧ ['*'] ∉ registration.fullPath.splitOn '/' ∧
      ∀ name ∈ placeholders registration.fullPath,
        name ≠ "__proto__".toList ∧ params.get? name ≠ some []

theorem lookupEntry_escaped (name : List Char) (es : List (List Char × List CodePoint)) :
    lookupEntry name (es.map escaped) =
      (lookupEntry name es).map fun value => (escaped (name, value)).2 := by
  induction es with
  | nil => rfl
  | cons e es ih =>
    obtain ⟨key, value⟩ := e
    show (if key = name then some (escaped (key, value)).2
        else lookupEntry name (es.map escaped)) =
      (if key = name then some value else lookupEntry name es).map _
    split_ifs with hkey
    · rw [← hkey]
      rfl
    · exact ih

theorem length_filter_lt {f : List Char → List Char} {gs : List (List Char)}
    (hempty : ∀ g ∈ gs, f g ≠ [] → g ≠ []) (h : ∃ g ∈ gs, g ≠ [] ∧ f g = []) :
    ((gs.map f).filter (· ≠ [])).length < (gs.filter (· ≠ [])).length := by
  have hle : ∀ xs : List (List Char), (∀ g ∈ xs, f g ≠ [] → g ≠ []) →
      ((xs.map f).filter (· ≠ [])).length ≤ (xs.filter (· ≠ [])).length := by
    intro xs hxs
    rw [← List.countP_eq_length_filter, ← List.countP_eq_length_filter, List.countP_map]
    refine List.countP_mono_left fun g hg hkept => ?_
    simpa using hxs g hg (by simpa using hkept)
  obtain ⟨g, hmem, hne, hnil⟩ := h
  obtain ⟨before, after, rfl⟩ := List.append_of_mem hmem
  have hbefore := hle before fun g hg => hempty g (List.mem_append_left _ hg)
  have hafter := hle after fun g hg =>
    hempty g (List.mem_append_right _ (List.mem_cons_of_mem _ hg))
  simp only [List.map_append, List.map_cons, List.filter_append, List.length_append, hnil, ne_eq,
    hne, not_true_eq_false, not_false_eq_true, decide_false, decide_true, List.filter_cons_of_pos,
    List.filter_cons, Bool.false_eq_true, if_false, List.length_cons] at hbefore hafter ⊢
  omega

/-- The template with all its placeholders filled in. -/
def filled (registration : Verser2RouteRegistration) (params : Params) : List Char :=
  fill (params.entries.map escaped) registration.fullPath

theorem plain_values (es : List (List Char × List CodePoint)) :
    ∀ e ∈ es.map escaped, Plain e.2 := by
  intro e he
  obtain ⟨e', -, rfl⟩ := List.mem_map.mp he
  exact escaped_plain e'

theorem splitOn_filled : (filled registration params).splitOn '/' =
    (registration.fullPath.splitOn '/').map (fillSegment (params.entries.map escaped)) := by
  refine List.splitOn_intercalate '/' (fun g hg => ?_) (by simp)
  obtain ⟨g', hg', rfl⟩ := List.mem_map.mp hg
  exact notMem_fillSegment (fun e he => (plain_values _ e he).2.1) (notMem_of_mem_splitOn hg')

theorem takeWhile_filled (h : '?' ∉ registration.fullPath) :
    (filled registration params).takeWhile (· ≠ '?') = filled registration params := by
  refine List.takeWhile_eq_self_iff.mpr fun c hc => decide_eq_true ?_
  rintro rfl
  obtain ⟨g, hg, hmem⟩ := mem_of_mem_intercalate hc (by decide)
  obtain ⟨g', hg', rfl⟩ := List.mem_map.mp hg
  have hfree : '?' ∉ g' := fun hmem' => h ((infix_of_mem_splitOn hg').subset hmem')
  unfold fillSegment at hmem
  split at hmem
  · exact hfree hmem
  · rename_i name _
    cases hlookup : lookupEntry name (params.entries.map escaped) with
    | none =>
      rw [hlookup] at hmem
      exact hfree hmem
    | some value =>
      rw [hlookup] at hmem
      exact (plain_values _ _ (mem_of_lookupEntry hlookup)).2.2.2 hmem

theorem materializePath_filled (h : ∀ n, materializeEntries (params.entries.take n)
      registration.fullPath =
        some (fill ((params.entries.take n).map escaped) registration.fullPath)) :
    materializePath registration.fullPath (some params) = some (filled registration params) := by
  have hall := h params.entries.length
  rw [List.take_length] at hall
  exact hall

theorem fillSegment_empty {name : List Char} (hname : name ∈ placeholders registration.fullPath)
    (hvalue : params.get? name = some []) :
    fillSegment (params.entries.map escaped) (':' :: name) = [] := by
  obtain ⟨-, hword⟩ := mem_placeholders_iff.mp hname
  have hlookup : lookupEntry name params.entries = some [] := hvalue
  simp only [fillSegment, placeholder?_eq_some_iff.mpr ⟨rfl, hword⟩, lookupEntry_escaped, hlookup,
    Option.map_some, Option.getD_some]
  rfl

section

variable (hencodable : ∀ e ∈ params.entries, CodePoint.chars? e.2 ≠ none)
  (hvalues : ∀ name ∈ placeholders registration.fullPath, params.has name = true)
  (hoptional : hasOptional registration.fullPath = false)
include hencodable hvalues hoptional

theorem clear_of_matched {decoded : OrderedMap (List Char) (List Char)}
    (hmatch : matchPath registration.fullPath
      ((filled registration params).takeWhile (· ≠ '?')) = some (.matched decoded))
    (hdecoded : ∀ name, decoded.get? name = if name ∈ placeholders registration.fullPath then
      (params.get? name).bind CodePoint.chars? else none) :
    '?' ∉ registration.fullPath ∧ ['*'] ∉ registration.fullPath.splitOn '/' ∧
      ∀ name ∈ placeholders registration.fullPath,
        name ≠ "__proto__".toList ∧ params.get? name ≠ some [] := by
  obtain ⟨entries, hcaptures, hdecode⟩ := (matched_iff hoptional).mp hmatch
  have hwildcard : ['*'] ∉ pathSegments registration.fullPath := by
    intro hmem
    obtain ⟨e, he, hname⟩ := captures_wildcard hmem hcaptures
    obtain ⟨-, hnames⟩ | ⟨-, e', he', -, hget⟩ := get?_decodeAll hdecode ['*']
    · exact absurd (hnames e he hname) (by decide)
    · rw [hdecoded, if_neg] at hget
      · exact decode_ne_none hdecode e' he' hget.symm
      · intro hname
        exact absurd ((mem_placeholders_iff.mp hname).2.2 '*' List.mem_cons_self) (by decide)
  have hstar : ['*'] ∉ registration.fullPath.splitOn '/' := fun hmem =>
    hwildcard (List.mem_filter.mpr ⟨hmem, by decide⟩)
  obtain ⟨hlength, hliteral⟩ := captures_parts hwildcard hcaptures
  have hquestion : '?' ∉ registration.fullPath := by
    intro hmem
    have hjoined : '?' ∈ ['/'].intercalate (registration.fullPath.splitOn '/') := by
      rwa [List.intercalate_splitOn]
    obtain ⟨g, hg, hin⟩ := mem_of_mem_intercalate hjoined (by decide)
    have hpart : g ∈ pathSegments registration.fullPath :=
      List.mem_filter.mpr ⟨hg, decide_eq_true (List.ne_nil_of_mem hin)⟩
    cases hparameter : parameter? g with
    | none =>
      -- the segment would stand in the path before the question mark
      have hthere := (List.mem_filter.mp (hliteral g hpart hparameter)).1
      have htaken := (infix_of_mem_splitOn hthere).subset hin
      exact absurd (List.mem_takeWhile_imp htaken) (by decide)
    | some parameter =>
      obtain ⟨name, optional⟩ := parameter
      cases optional with
      | false =>
        obtain ⟨rfl, -, hword⟩ := parameter?_eq_some hparameter
        have hname := (List.mem_cons.mp hin).resolve_left (by decide)
        exact absurd (hword '?' hname) (by decide)
      | true => exact parameter?_required hoptional hg hparameter
  refine ⟨hquestion, hstar, fun name hname => ⟨?_, fun hempty => ?_⟩⟩
  · rintro rfl
    have hnone := ((get?_decodeAll hdecode _).resolve_right fun h => h.1 rfl).1
    obtain ⟨value, hvalue⟩ := has_iff.mp (hvalues _ hname)
    rw [hdecoded, if_pos hname, hvalue] at hnone
    exact hencodable _ (mem_entries_iff.mpr hvalue) hnone
  · have hparts : pathSegments ((filled registration params).takeWhile (· ≠ '?')) =
        ((registration.fullPath.splitOn '/').map
          (fillSegment (params.entries.map escaped))).filter (· ≠ []) := by
      rw [takeWhile_filled hquestion, pathSegments, splitOn_filled]
    rw [hparts, pathSegments] at hlength
    refine absurd hlength (Nat.ne_of_lt (length_filter_lt (fun g _ hfilled => ?_) ?_))
    · rintro rfl
      exact hfilled rfl
    · exact ⟨_, (mem_placeholders_iff.mp hname).1, List.cons_ne_nil _ _,
        fillSegment_empty hname hempty⟩

theorem matched_of_clear (hquestion : '?' ∉ registration.fullPath)
    (hwildcard : ['*'] ∉ registration.fullPath.splitOn '/')
    (hnames : ∀ name ∈ placeholders registration.fullPath,
      name ≠ "__proto__".toList ∧ params.get? name ≠ some []) :
    ∃ decoded, matchPath registration.fullPath (filled registration params) =
        some (.matched decoded) ∧
      ∀ name, decoded.get? name = if name ∈ placeholders registration.fullPath then
        (params.get? name).bind CodePoint.chars? else none := by
  -- the text of a placeholder's value
  have hchars : ∀ name ∈ placeholders registration.fullPath, ∃ value cs,
      params.get? name = some value ∧ CodePoint.chars? value = some cs ∧ cs ≠ [] := by
    intro name hname
    obtain ⟨value, hvalue⟩ := has_iff.mp (hvalues name hname)
    have hmem := mem_entries_iff.mpr hvalue
    obtain ⟨cs, hcs⟩ := Option.ne_none_iff_exists'.mp (hencodable _ hmem)
    refine ⟨value, cs, hvalue, hcs, ?_⟩
    rintro rfl
    have hlength := CodePoint.length_of_chars? hcs
    have hnil : value = [] := List.length_eq_zero_iff.mp hlength.symm
    exact (hnames name hname).2 (hnil ▸ hvalue)
  let v : List Char → List Char := fun name => ((params.get? name).bind CodePoint.chars?).getD []
  have hv : ∀ name ∈ placeholders registration.fullPath, v name ≠ [] ∧
      lookupEntry name (params.entries.map escaped) = some ((v name).flatMap escapeChar) := by
    intro name hname
    obtain ⟨value, cs, hvalue, hcs, hne⟩ := hchars name hname
    have hlookup : lookupEntry name params.entries = some value := hvalue
    have hcs' : v name = cs := by simp only [v, hvalue, Option.bind_some, hcs, Option.getD_some]
    refine ⟨hcs' ▸ hne, ?_⟩
    rw [hcs', lookupEntry_escaped, hlookup, Option.map_some, escaped, hcs, Option.getD_some]
  have hcaptures := captures_fill hwildcard
    (fun g hg hmem => hquestion ((infix_of_mem_splitOn hg).subset hmem)) hv
  obtain ⟨decoded, hdecode⟩ : ∃ decoded, decodeAll ((placeholders registration.fullPath).map
      fun name => (name, (v name).flatMap escapeChar)) .empty = some decoded := by
    refine Option.ne_none_iff_exists'.mp fun hnone => ?_
    obtain ⟨e, he, hnone⟩ := decodeAll_eq_none_iff.mp hnone
    obtain ⟨name, -, rfl⟩ := List.mem_map.mp he
    rw [decodeURIComponent_escape] at hnone
    cases hnone
  refine ⟨decoded, (matched_iff hoptional).mpr ⟨_, ?_, hdecode⟩, fun name => ?_⟩
  · rw [pathSegments, pathSegments, splitOn_filled]
    exact hcaptures
  · obtain ⟨hget, hother⟩ | ⟨-, e, he, rfl, hget⟩ := get?_decodeAll hdecode name
    · rw [if_neg fun hname => (hnames name hname).1
        (hother _ (List.mem_map_of_mem hname) rfl), hget]
      rfl
    · obtain ⟨name, hname, rfl⟩ := List.mem_map.mp he
      obtain ⟨value, cs, hvalue, hcs, -⟩ := hchars name hname
      rw [if_pos hname, hget, decodeURIComponent_escape]
      simp only [v, hvalue, Option.bind_some, hcs, Option.getD_some]

end

/-- A template and its parameters make the round trip if and only if every parameter can be encoded
and finds its own placeholder, and the registry can tell the segments apart. -/
theorem roundTrips_iff
    (hvalues : ∀ name ∈ placeholders registration.fullPath, params.has name = true) :
    RoundTrips registration params ↔ Clear registration params := by
  have hsurrogate : ∀ e : List Char × List CodePoint,
      CodePoint.chars? e.2 ≠ none ↔ ∀ p ∈ e.2, p.isSurrogate = false := by
    intro e
    rw [Ne, CodePoint.chars?_eq_none_iff]
    push Not
    simp only [Bool.not_eq_true]
  have htake : (∀ n, materializeEntries (params.entries.take n) registration.fullPath =
        some (fill ((params.entries.take n).map escaped) registration.fullPath)) ↔
      ∀ n e, params.entries[n]? = some e → CodePoint.chars? e.2 ≠ none ∧
        Own ((params.entries.take n).map escaped) e.1 registration.fullPath :=
    materializeEntries_take_iff params.nodup
  constructor
  · rintro ⟨hreplaced, hmatched⟩
    have hown := htake.mp hreplaced
    have hencodable : ∀ e ∈ params.entries, CodePoint.chars? e.2 ≠ none := by
      intro e he
      obtain ⟨n, hn⟩ := List.mem_iff_getElem?.mp he
      exact (hown n e hn).1
    refine ⟨fun e he => (hsurrogate e).mp (hencodable e he), fun n e he => (hown n e he).2,
      fun registry hregistry => ?_⟩
    obtain ⟨rfl, hoptional⟩ := of_register hregistry
    have hupper : toUpperCase registration.method.upper.toList =
        registration.method.upper.toList := by
      cases registration.method <;> decide
    obtain ⟨path, pathname, decoded, hpath, hdispatch, hdecoded⟩ :=
      hmatched _ hregistry registration.method.upper.toList hupper
    rw [materializePath_filled hreplaced, Option.some.injEq] at hpath
    subst hpath
    obtain ⟨-, hmatch⟩ := (dispatch_singleton hupper).mp hdispatch
    exact clear_of_matched hencodable hvalues hoptional hmatch hdecoded
  · rintro ⟨hplain, hown, hclear⟩
    have hencodable : ∀ e ∈ params.entries, CodePoint.chars? e.2 ≠ none :=
      fun e he => (hsurrogate e).mpr (hplain e he)
    have hreplaced := htake.mpr fun n e he =>
      ⟨hencodable e (List.mem_of_getElem? he), hown n e he⟩
    refine ⟨hreplaced, fun registry hregistry method hmethod => ?_⟩
    obtain ⟨hquestion, hwildcard, hnames⟩ := hclear registry hregistry
    obtain ⟨rfl, hoptional⟩ := of_register hregistry
    obtain ⟨decoded, hmatch, hdecoded⟩ :=
      matched_of_clear hencodable hvalues hoptional hquestion hwildcard hnames
    refine ⟨_, _, decoded, materializePath_filled hreplaced, (dispatch_singleton hmethod).mpr
      ⟨rfl, ?_⟩, hdecoded⟩
    rw [takeWhile_filled hquestion]
    exact hmatch

end RoundTrip

/-! ### Examples -/

def registrationOf (fullPath : String) : Verser2RouteRegistration := ⟨.get, none, fullPath.toList⟩

def textOf (s : String) : List CodePoint := s.toList.map CodePoint.ofChar

/-- A value with a colon and a slash. -/
def colonParams : Params := ⟨[("id".toList, textOf "x:/y")], by decide⟩

theorem roundTrips_colon : RoundTrips (registrationOf "/a/:id") colonParams := by
  refine (roundTrips_iff (by decide)).mpr ⟨by decide, fun n e he => ?_, fun _ _ => by decide⟩
  cases n with
  | zero =>
    cases he
    refine ⟨fun _ => ⟨[[], ['a']], [], by decide, by decide, fun g hg hinfix => ?_⟩,
      fun h => absurd (by decide) h⟩
    have hlength := hinfix.length_le
    rcases List.mem_cons.mp hg with rfl | hg
    · exact absurd hlength (by decide)
    · rw [List.mem_singleton.mp hg] at hlength
      exact absurd hlength (by decide)
  | succ n => cases he

/-- The parameters of two placeholders, one of whose names begins with the other. -/
def prefixParams : Params :=
  ⟨[("id".toList, textOf "1"), ("idx".toList, textOf "2")], by decide⟩

/-- The value of `id` is put into the placeholder of `idx`. -/
theorem not_roundTrips_prefix :
    materializePath "/:idx/:id".toList (some prefixParams) = some "/1x/:id".toList ∧
      ¬ RoundTrips (registrationOf "/:idx/:id") prefixParams := by
  refine ⟨by decide, fun h => ?_⟩
  exact absurd (h.replaced 1) (by decide)

end TransformHub.ApiRouter
