import Mathlib.Data.List.Nodup
import QuerySplice.Proofs.Places

/-!
# Landmarks

The landmarks of a query are its clauses and the limit for each group. At one place stands one of
them at most, since their first words differ and the two forms of `LIMIT` exclude each other. The
locator of a clause finds the first place of its landmark, and the earliest of several clauses is
the first place of a landmark among theirs, so one list of places answers every question an edit
asks.
-/

namespace QuerySplice.Sql

open Text

variable {s t t' b : Text}

inductive Landmark
  | clause (c : Clause)
  | perGroup
  deriving DecidableEq, Repr

namespace Landmark

def all : List Landmark := Clause.all.map clause ++ [perGroup]

def startsAt : Landmark → Text → Bool
  | clause c, s => c.keyword.startsAt s
  | perGroup, s => startsLimitBy s

/-- The first word of the landmark. -/
def word : Landmark → Text
  | clause c => c.keyword.words.headD []
  | perGroup => "LIMIT".toList

theorem mem_all (l : Landmark) : l ∈ all := by
  cases l with
  | clause c => cases c <;> decide
  | perGroup => decide

end Landmark

/-- The landmarks that the text starts with. -/
def landmarks (s : Text) : List Landmark := Landmark.all.filter fun l => l.startsAt s

/-- The keywords of a list that the text starts with. -/
def keywordsAt (ks : List Keyword) (s : Text) : List Keyword := ks.filter fun k => k.startsAt s

/-- The landmarks of a query and their offsets. -/
def occurrences (sql : Text) : List (Landmark × Nat) := places landmarks sql

/-- The `OR` that the text starts with. -/
def disjunctions (s : Text) : List Keyword := [Keyword.or].filter fun k => k.startsAt s

/-- The landmarks that end the text of a clause: those of the clauses after it. -/
def Clause.after (c : Clause) : List Landmark :=
  c.following.flatMap fun d => if d = .limit then [.clause d, .perGroup] else [.clause d]

theorem mem_landmarks {l : Landmark} : l ∈ landmarks s ↔ l.startsAt s = true := by
  simp [landmarks, Landmark.mem_all]

/-! ## Landmarks begin with their words -/

theorem Keyword.rest?_of_startsAt {k : Keyword} (h : k.startsAt s = true) :
    ∃ rest, readWords k.words s = some rest ∧ k.isRefused rest = false := by
  rw [Keyword.startsAt, Keyword.rest?, Option.isSome_iff_exists] at h
  obtain ⟨rest, hrest⟩ := h
  obtain ⟨hread, hrefused⟩ := Option.filter_eq_some_iff.mp hrest
  exact ⟨rest, hread, by simpa using hrefused⟩

theorem Keyword.readWord_of_startsAt {k : Keyword} (hk : Readable k)
    (h : k.startsAt s = true) : readWord (k.words.headD []) s ≠ none := by
  obtain ⟨rest, hread, -⟩ := Keyword.rest?_of_startsAt h
  obtain ⟨hne, -⟩ := hk.isWord
  intro hnone
  cases hwords : k.words with
  | nil => exact hne hwords
  | cons word words =>
      rw [hwords, List.headD_cons] at hnone
      rw [hwords] at hread
      by_cases hlast : words = []
      · subst hlast
        rw [readWords, hnone] at hread
        cases hread
      · rw [readWords_cons hlast, hnone] at hread
        cases hread

theorem Clause.keyword_mem_locatable (c : Clause) : c.keyword ∈ locatable := by
  cases c <;> decide

theorem Landmark.readWord_of_startsAt {l : Landmark} (h : l.startsAt s = true) :
    readWord l.word s ≠ none := by
  cases l with
  | clause c => exact Keyword.readWord_of_startsAt (readable_of_locatable c.keyword_mem_locatable) h
  | perGroup =>
      intro hnone
      rw [Landmark.startsAt, startsLimitBy, show readWord "LIMIT".toList s = none from hnone] at h
      cases h

theorem Landmark.isWord_word (l : Landmark) : IsWord l.word := by
  cases l with
  | clause c => cases c <;> decide
  | perGroup => decide

theorem Landmark.startsAt_eq (l : Landmark) (h : Alike s t t') (hb : b <:+ s) (hne : b ≠ []) :
    l.startsAt (b ++ t) = l.startsAt (b ++ t') := by
  cases l with
  | clause c => exact h.startsAt_eq (readable_of_locatable c.keyword_mem_locatable) hb hne
  | perGroup => exact h.startsLimitBy_eq hb hne

/-- The first words of the landmarks. -/
def landmarkWords : List Text := Landmark.all.map Landmark.word

/-- Behind an i, an s or a k of the word, the landmarks differ from its rest. -/
def ApartFromLandmarks (word : Text) : Prop :=
  ∀ a ∈ word.tails, smallForm (a.headD 'A') ∈ [0x69, 0x73, 0x6B] → a.tail ≠ [] →
    ∀ head ∈ landmarkWords, differ head a.tail = true

instance (word : Text) : Decidable (ApartFromLandmarks word) := by
  unfold ApartFromLandmarks
  infer_instance

/-- The text begins with the word of a landmark. -/
def Headed (t : Text) : Prop := ∃ word ∈ landmarkWords, ∃ w rest, t = w ++ rest ∧ Spells word w

theorem isWord_of_mem_landmarkWords {word : Text} (h : word ∈ landmarkWords) : IsWord word := by
  obtain ⟨l, -, rfl⟩ := List.mem_map.mp h
  exact l.isWord_word

theorem Landmark.headed {l : Landmark} (h : l.startsAt s = true) : Headed s := by
  obtain ⟨rest, hread⟩ := Option.ne_none_iff_exists'.mp (Landmark.readWord_of_startsAt h)
  obtain ⟨w, hs, hw⟩ := readWord_eq_some_iff.mp hread
  exact ⟨l.word, List.mem_map_of_mem l.mem_all, w, rest, hs, hw⟩

namespace Headed

theorem append (h : Headed s) (t : Text) : Headed (s ++ t) := by
  obtain ⟨word, hword, w, rest, rfl, hw⟩ := h
  exact ⟨word, hword, w, rest ++ t, List.append_assoc .., hw⟩

theorem exists_cons (h : Headed s) : ∃ c t, s = c :: t ∧ isLetterAnyCase c = true := by
  obtain ⟨word, hword, w, rest, rfl, hw⟩ := h
  obtain ⟨c, w, rfl, hc⟩ := hw.exists_cons (isWord_of_mem_landmarkWords hword)
  exact ⟨c, w ++ rest, rfl, hc⟩

/-- Nothing in front of a landmark is read on into it. -/
theorem fresh (h : Headed t) : Fresh t := by
  have hdiffer : ∀ word ∈ landmarkWords, differ word "OFFSET".toList = true ∧
      differ word "BY".toList = true := by decide
  obtain ⟨word, hword, w, rest, rfl, hw⟩ := h
  obtain ⟨hoffset, hby⟩ := hdiffer word hword
  exact fresh_of_spells (isWord_of_mem_landmarkWords hword) hoffset hby hw rest

/-- No word that begins with a letter at the end of a text goes on with the word of a landmark, when
that letter is no character of a plain name. -/
theorem behind {words : List Text} (h : Headed t) (hs : ∀ d ∈ s.getLast?, isNameChar d = false)
    (hplain : ∀ word ∈ words, ∀ c ∈ word, isNameChar c = true ∧ c.toNat < 128)
    (hapart : ∀ word ∈ words, ApartFromLandmarks word) : Behind words s t := by
  obtain ⟨c, r, hcons, hletter⟩ := h.exists_cons
  refine ⟨h.fresh, ?_, ?_, ?_⟩
  · rw [hcons]
    exact isDecimal_of_letter hletter
  · have hpoint : c ≠ '.' := by
      rintro rfl
      exact absurd hletter (by decide)
    simp [hcons, hpoint]
  · intro word hword w v hsuffix hne d hd hsame
    obtain ⟨hname, hascii⟩ := hplain word hword w (hsuffix.subset (by simp))
    have hspecial := smallForm_of_not_isNameChar hname hascii (hs d hd) hsame
    obtain ⟨head, hhead, x, rest, rfl, hx⟩ := h
    have hdiffer := hapart word hword (w :: v) ((List.mem_tails _ _).mpr hsuffix) hspecial hne head
      hhead
    refine readWord_eq_none_of_differ (isWord_of_mem_landmarkWords hhead).ascii ?_ hdiffer hx rest
    intro e he
    exact (hplain word hword e (hsuffix.subset (List.mem_cons_of_mem _ he))).2

end Headed

theorem isNameChar_of_isAlpha {c : Char} (hc : c.isAlpha = true) : isNameChar c = true := by
  simp [isNameChar, Char.isAlphanum, hc]

/-- Behind a text that ends in no character of a plain name all landmarks look the same. -/
theorem alike_of_headed (hs : ∀ d ∈ s.getLast?, isNameChar d = false) (ht : Headed t)
    (ht' : Headed t') : Alike s t t' := by
  have hplain : ∀ word ∈ vocabulary, ∀ c ∈ word, isNameChar c = true ∧ c.toNat < 128 := by
    intro word hword c hc
    have halpha := (isWord_of_mem_vocabulary hword).2 c hc
    exact ⟨isNameChar_of_isAlpha halpha, toNat_lt_of_isAlpha halpha⟩
  have hapart : ∀ word ∈ vocabulary, ApartFromLandmarks word := by decide
  refine ⟨ht.behind hs hplain hapart, ht'.behind hs hplain hapart, fun _ => ?_⟩
  obtain ⟨c, r, rfl, hc⟩ := ht.exists_cons
  obtain ⟨c', r', rfl, hc'⟩ := ht'.exists_cons
  rw [nextIs_cons, nextIs_cons, isNameCharAnyCase_of_letter hc, isNameCharAnyCase_of_letter hc']

theorem wordMarks_landmarks : WordMarks landmarkWords landmarks where
  isWord _ := isWord_of_mem_landmarkWords
  reads s hs := by
    obtain ⟨l, hl⟩ := List.exists_mem_of_ne_nil _ hs
    refine ⟨l.word, List.mem_map_of_mem l.mem_all, ?_⟩
    exact Landmark.readWord_of_startsAt (mem_landmarks.mp hl)
  cut h _ hb hne := by simp only [landmarks, Landmark.startsAt_eq _ h hb hne]

theorem wordMarks_keywordsAt {ks : List Keyword} (hks : ∀ k ∈ ks, Readable k) :
    WordMarks (ks.map fun k => k.words.headD []) (keywordsAt ks) where
  isWord word hword := by
    obtain ⟨k, hk, rfl⟩ := List.mem_map.mp hword
    obtain ⟨hne, hwords⟩ := (hks k hk).isWord
    cases h : k.words with
    | nil => exact absurd h hne
    | cons word words => exact hwords word (by simp [h])
  reads s hs := by
    obtain ⟨k, hk⟩ := List.exists_mem_of_ne_nil _ hs
    obtain ⟨hmem, hstarts⟩ := List.mem_filter.mp hk
    exact ⟨_, List.mem_map_of_mem hmem, Keyword.readWord_of_startsAt (hks k hmem) hstarts⟩
  cut h _ hb hne :=
    List.filter_congr fun k hk => h.startsAt_eq (hks k hk) hb hne

theorem wordMarks_disjunctions : WordMarks ["OR".toList] disjunctions :=
  wordMarks_keywordsAt (by decide : ∀ k ∈ [Keyword.or], Readable k)

/-! ## One landmark at a place -/

/-- A text does not start with both forms of `LIMIT`. -/
theorem not_startsLimitBy_of_startsAt (h : Clause.limit.keyword.startsAt s = true) :
    startsLimitBy s = false := by
  obtain ⟨rest, hread, hrefused⟩ := Keyword.rest?_of_startsAt h
  have hword : readWord "LIMIT".toList s = some rest := hread
  have hname : (Clause.limit.keyword.name == "LIMIT".toList) = true := by decide
  rw [Keyword.isRefused, hname, Bool.true_and, Bool.or_eq_false_iff] at hrefused
  rw [startsLimitBy, hword]
  exact hrefused.2

theorem Landmark.eq_of_startsAt {l l' : Landmark} (hl : l.startsAt s = true)
    (hl' : l'.startsAt s = true) : l = l' := by
  have hall : ∀ l ∈ Landmark.all, ∀ l' ∈ Landmark.all, l = l' ∨ differ l.word l'.word = true ∨
      (l = .clause .limit ∧ l' = .perGroup) ∨ (l = .perGroup ∧ l' = .clause .limit) := by decide
  rcases hall l l.mem_all l' l'.mem_all with h | h | ⟨rfl, rfl⟩ | ⟨rfl, rfl⟩
  · exact h
  · obtain ⟨rest, hrest⟩ := Option.ne_none_iff_exists'.mp (Landmark.readWord_of_startsAt hl)
    obtain ⟨t, rfl, ht⟩ := readWord_eq_some_iff.mp hrest
    have hnone := readWord_eq_none_of_differ l.isWord_word.ascii l'.isWord_word.ascii h ht rest
    exact absurd hnone (Landmark.readWord_of_startsAt hl')
  · exact absurd ((not_startsLimitBy_of_startsAt hl).symm.trans hl') (by decide)
  · exact absurd ((not_startsLimitBy_of_startsAt hl').symm.trans hl) (by decide)

/-- At one place stands one keyword at most of a list whose first words differ. -/
theorem keywordsAt_eq_singleton {k : Keyword} {ks : List Keyword} (hks : ∀ k ∈ ks, Readable k)
    (hnodup : ks.Nodup) (hk : k ∈ ks)
    (hothers : ∀ k' ∈ ks, k' = k ∨ differ (k.words.headD []) (k'.words.headD []) = true)
    (h : k.startsAt s = true) : keywordsAt ks s = [k] := by
  have hisWord {k : Keyword} (hk : k ∈ ks) : IsWord (k.words.headD []) :=
    (wordMarks_keywordsAt hks).isWord _ (List.mem_map_of_mem hk)
  have hsame : ∀ k' ∈ ks, k'.startsAt s = (k' == k) := by
    intro k' hk'
    rw [Bool.eq_iff_iff, beq_iff_eq]
    constructor
    · intro h'
      refine (hothers k' hk').resolve_right fun hdiffer => ?_
      obtain ⟨rest, hread⟩ :=
        Option.ne_none_iff_exists'.mp (Keyword.readWord_of_startsAt (hks k hk) h)
      obtain ⟨w, rfl, hw⟩ := readWord_eq_some_iff.mp hread
      exact Keyword.readWord_of_startsAt (hks k' hk') h'
        (readWord_eq_none_of_differ (hisWord hk).ascii (hisWord hk').ascii hdiffer hw rest)
    · rintro rfl
      exact h
  rw [keywordsAt, List.filter_congr hsame, List.filter_beq, List.count_eq_one_of_mem hnodup hk,
    List.replicate_one]

/-- At one place stands one landmark at most. -/
theorem landmarks_eq_singleton {l : Landmark} (h : l.startsAt s = true) : landmarks s = [l] := by
  have hfilter : landmarks s = Landmark.all.filter fun l' => l' == l := by
    refine List.filter_congr fun l' _ => ?_
    rw [Bool.eq_iff_iff, beq_iff_eq]
    constructor
    · intro h'
      exact Landmark.eq_of_startsAt h' h
    · rintro rfl
      exact h
  have hone : ∀ l ∈ Landmark.all, (Landmark.all.filter fun l' => l' == l) = [l] := by decide
  rw [hfilter, hone l l.mem_all]

/-! ## What the locators find -/

/-- The first place of either of two tests is the earlier one of their first places. -/
theorem firstFrom_or (p q : Text → Bool) (st : Scan) (s : Text) :
    firstFrom (fun s => p s || q s) st s =
      Option.merge min (firstFrom p st s) (firstFrom q st s) := by
  induction s generalizing st with
  | nil => rfl
  | cons c s ih =>
      simp only [firstFrom, ih]
      cases st.topLevel c with
      | false =>
          cases firstFrom p (st.step c) s <;> cases firstFrom q (st.step c) s <;>
            simp [Nat.add_min_add_right]
      | true =>
          cases p (c :: s) <;> cases q (c :: s) <;>
            cases firstFrom p (st.step c) s <;> cases firstFrom q (st.step c) s <;>
            simp [Nat.add_min_add_right]

theorem min?_filterMap_cons (o : Option Nat) (os : List (Option Nat)) :
    ((o :: os).filterMap id).min? = Option.merge min o (os.filterMap id).min? := by
  cases o with
  | none => rw [List.filterMap_cons_none rfl, Option.merge_none_left]
  | some n =>
      have hcons : (some n :: os).filterMap id = n :: os.filterMap id := rfl
      rw [hcons, List.min?_cons]
      cases (os.filterMap id).min? <;> rfl

theorem min?_first? (ls : List Landmark) (sql : Text) :
    ((ls.map fun l => first? l.startsAt sql).filterMap id).min? =
      first? (fun s => ls.any fun l => l.startsAt s) sql := by
  induction ls with
  | nil =>
      have hnone (st : Scan) (s : Text) : firstFrom (fun _ => false) st s = none := by
        induction s generalizing st with
        | nil => rfl
        | cons c s ih => simp [firstFrom, ih]
      exact (hnone .start sql).symm
  | cons l ls ih =>
      rw [List.map_cons, min?_filterMap_cons, ih, first?, first?, ← firstFrom_or]
      simp only [first?, List.any_cons]

/-- The first place of one of the landmarks. -/
theorem first?_eq_find? (ls : List Landmark) (sql : Text) :
    first? (fun s => ls.any fun l => l.startsAt s) sql =
      ((occurrences sql).find? fun p => ls.contains p.1).map (·.2) := by
  refine firstFrom_eq_find? (fun l => ls.contains l) (fun s => ?_) .start sql
  rw [Bool.eq_iff_iff, List.any_eq_true, List.any_eq_true]
  constructor
  · rintro ⟨l, hl, hs⟩
    exact ⟨l, mem_landmarks.mpr hs, List.contains_iff_mem.mpr hl⟩
  · rintro ⟨l, hs, hl⟩
    exact ⟨l, List.contains_iff_mem.mp hl, mem_landmarks.mp hs⟩

/-- The locator of a clause finds its first occurrence. -/
theorem Clause.position?_eq_find? (c : Clause) (sql : Text) :
    c.position? sql =
      ((occurrences sql).find? fun p => [Landmark.clause c].contains p.1).map (·.2) := by
  have hwords : c.keyword.words.isEmpty = false := by cases c <;> rfl
  rw [← first?_eq_find?, Clause.position?, Keyword.position?, hwords, if_neg (by simp)]
  simp only [List.any_cons, List.any_nil, Bool.or_false]
  rfl

theorem boundaries_keyword (c : Clause) (sql : Text) :
    c.keyword.boundaries sql =
      (if c = .limit then [Landmark.clause c, .perGroup] else [.clause c]).map fun l =>
        first? l.startsAt sql := by
  cases c <;> rfl

/-- The earliest of the clauses after `c` begins at the first occurrence of one of their
landmarks. -/
theorem firstPosition?_eq_find? (c : Clause) (sql : Text) :
    firstPosition? c.followingKeywords sql =
      ((occurrences sql).find? fun p => c.after.contains p.1).map (·.2) := by
  rw [← first?_eq_find?, ← min?_first?, firstPosition?, Clause.followingKeywords, Clause.after,
    List.flatMap_map, List.map_flatMap]
  simp only [boundaries_keyword]

/-- The locator of a keyword finds its first place among those of a list with it. -/
theorem Keyword.position?_eq_find? {k : Keyword} {ks : List Keyword} (hk : k ∈ ks)
    (hwords : k.words.isEmpty = false) (sql : Text) :
    k.position? sql = ((places (keywordsAt ks) sql).find? fun p => p.1 == k).map (·.2) := by
  have hany (s : Text) : k.startsAt s = (keywordsAt ks s).any (· == k) := by
    rw [Bool.eq_iff_iff, List.any_eq_true]
    simp only [keywordsAt, List.mem_filter, beq_iff_eq, exists_eq_right]
    exact (and_iff_right hk).symm
  rw [Keyword.position?, hwords, if_neg (by simp)]
  exact firstFrom_eq_find? (· == k) hany .start sql

/-- A keyword of a list has no place at top level when the places of the list are those of other
keywords. -/
theorem Keyword.position?_isNone_iff {k : Keyword} {ks : List Keyword} (hk : k ∈ ks)
    (hwords : k.words.isEmpty = false) (sql : Text) :
    (k.position? sql).isNone = true ↔ ∀ q ∈ places (keywordsAt ks) sql, q.1 ≠ k := by
  rw [Keyword.position?_eq_find? hk hwords, Option.isNone_iff_eq_none, Option.map_eq_none_iff,
    List.find?_eq_none]
  simp only [beq_iff_eq, ne_eq]

/-- No top-level `OR` is found where none has a place. -/
theorem or_position?_isNone_iff (sql : Text) :
    (Keyword.or.position? sql).isNone = true ↔ places disjunctions sql = [] := by
  rw [Keyword.position?_isNone_iff (List.mem_singleton_self Keyword.or) rfl,
    List.eq_nil_iff_forall_not_mem]
  refine forall_congr' fun q => ⟨fun h hq => h hq ?_, fun h hq => absurd hq h⟩
  obtain ⟨c, b, d, -, -, -, hmark⟩ := mem_placesFrom_iff.mp hq
  exact List.mem_singleton.mp (List.mem_of_mem_filter hmark)

end QuerySplice.Sql
