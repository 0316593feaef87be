import QuerySplice.Proofs.Terminators

/-!
# Connectives of a predicate

`AND` and `OR` join the parts of a predicate. A connective that is a word of its own stands between
two parts where the first is closed, and no recogniser reads over it: the clauses and connectives of
the whole are those of the two parts and the connective itself. Blanks around a part and parentheses
around it add nothing.
-/

namespace QuerySplice.Sql

open Text

variable {α : Type} {words : List Text} {marks : Text → List α} {s t w gap : Text} {k : Keyword}

/-- The word between two conditions that both have to hold. -/
def Keyword.and : Keyword := ⟨["AND".toList]⟩

/-- The connectives of a text at top level and their offsets. -/
def connectives (s : Text) : List (Keyword × Nat) := places (keywordsAt [.and, .or]) s

/-- A connective between the two texts is a word of its own. -/
structure Apart (s t : Text) : Prop where
  before : ∀ d ∈ s.getLast?, isNameCharAnyCase d = false ∧ d ≠ '.'
  behind : nextIs (fun c => isNameCharAnyCase c || c == '.') t = false

instance (s t : Text) : Decidable (Apart s t) :=
  decidable_of_iff ((s.getLast?.all fun d => !isNameCharAnyCase d && d != '.') = true ∧
      nextIs (fun c => isNameCharAnyCase c || c == '.') t = false) (by
    simp only [Option.all_eq_true, Bool.and_eq_true, Bool.not_eq_true', bne_iff_ne]
    exact ⟨fun h => ⟨h.1, h.2⟩, fun h => ⟨h.before, h.behind⟩⟩)

theorem wordMarks_connectives :
    WordMarks ["AND".toList, "OR".toList] (keywordsAt [.and, .or]) :=
  wordMarks_keywordsAt (by decide : ∀ k ∈ [Keyword.and, .or], Readable k)

theorem Keyword.words_of_connective (hk : k ∈ [Keyword.and, .or]) :
    ∃ word ∈ ["AND".toList, "OR".toList], k.words = [word] := by
  have hall : ∀ k ∈ [Keyword.and, .or], ∃ word ∈ ["AND".toList, "OR".toList], k.words = [word] := by
    decide
  exact hall k hk

/-! ## Around a connective -/

/-- Where a text ends in no letter, nothing that starts in it is read on into a fresh text. -/
theorem behind_of_not_letter (hwords : ∀ word ∈ words, IsWord word)
    (hs : ∀ d ∈ s.getLast?, isLetterAnyCase d = false) (hfresh : Fresh t)
    (hdigit : nextIs isDecimal t = false) (hpoint : nextIs (· == '.') t = false) :
    Behind words s t := by
  refine ⟨hfresh, hdigit, hpoint, fun word hword w v hv _ d hd hsame => ?_⟩
  have hw : w.isAlpha = true := (hwords word hword).2 w (hv.subset (by simp))
  exact absurd (isLetterAnyCase_of_sameLetter hw hsame) (by simp [hs d hd])

theorem not_letter_of_not_name {d : Char} (hd : isNameCharAnyCase d = false) :
    isLetterAnyCase d = false :=
  Bool.eq_false_iff.mpr fun h => by simp [isNameCharAnyCase_of_letter h] at hd

/-- A text that ends in no letter looks the same in front of a word and at the end. -/
theorem alike_word {word : Text} (hw : IsWord word) (ho : differ word "OFFSET".toList = true)
    (hb : differ word "BY".toList = true) (hs : ∀ d ∈ s.getLast?, isNameCharAnyCase d = false)
    (hspell : Spells word w) (t : Text) : Alike s (w ++ t) [] := by
  have hletter : ∀ d ∈ s.getLast?, isLetterAnyCase d = false := fun d hd =>
    not_letter_of_not_name (hs d hd)
  obtain ⟨c, r, rfl, hc⟩ := hspell.exists_cons hw
  have hpoint : c ≠ '.' := by
    rintro rfl
    exact absurd hc (by decide)
  refine ⟨behind_of_not_letter (fun _ => isWord_of_mem_vocabulary) hletter
      (fresh_of_spells hw ho hb hspell t) (isDecimal_of_letter hc) (by simp [hpoint]),
    behind_of_not_letter (fun _ => isWord_of_mem_vocabulary) hletter fresh_nil rfl rfl, ?_⟩
  intro hend
  obtain ⟨d, hd, hdletter⟩ := hend.exists_letter
  exact absurd hdletter (by simp [hletter d hd])

theorem ready_of_apart (hs : Level s)
    (hlast : ∀ d ∈ s.getLast?, isNameCharAnyCase d = false ∧ d ≠ '.') :
    (Scan.start.after s).Ready := by
  refine ⟨Scan.marked_after Scan.ready_start.marked s, hs.outside, hs.depth, ?_⟩
  rw [wordStart_after_iff]
  intro d hd
  obtain ⟨hname, hpoint⟩ := hlast d hd
  simp only [isNameCharAnyCase, Bool.or_eq_false_iff] at hname
  exact ⟨hname.1.1.1.1, hpoint⟩

/-- What is found around a connective: what is found in front of it, and what is found from there
on. -/
theorem WordMarks.places_word_between (hm : WordMarks words marks) {word : Text}
    (hword : word ∈ ["AND".toList, "OR".toList]) (hs : Level s)
    (hlast : ∀ d ∈ s.getLast?, isNameCharAnyCase d = false ∧ d ≠ '.') (hw : Spells word w)
    (t : Text) :
    places marks (s ++ (w ++ t)) = places marks s ++ shift s.length (places marks (w ++ t)) := by
  have hall : ∀ word ∈ ["AND".toList, "OR".toList], IsWord word ∧
      differ word "OFFSET".toList = true ∧ differ word "BY".toList = true := by decide
  obtain ⟨hisWord, ho, hb⟩ := hall word hword
  have hmark : nextIs isQuoteMark (w ++ t) = false := by
    obtain ⟨c, r, rfl, -⟩ := hw.exists_cons hisWord
    exact (hw.plainText hisWord c (by simp)).1
  have halike := alike_word hisWord ho hb (fun d hd => (hlast d hd).1) hw t
  rw [(ready_of_apart hs hlast).places_append hmark, hm.placesFrom_cut halike]
  simp only [List.append_nil]
  rfl

/-- A word that does not begin with another one is not read as it, when no letter follows. -/
theorem readWord_eq_none_of_not_begins {v word : Text} (hv : Ascii v)
    (hword : ∀ c ∈ word, c.isAlpha = true) (h : ¬ word.map smallForm <+: v.map smallForm)
    (hs : Spells v s) (ht : nextIs isLetterAnyCase t = false) : readWord word (s ++ t) = none := by
  induction v generalizing word s with
  | nil =>
      cases hs
      cases word with
      | nil => exact absurd (List.nil_prefix (l := [].map smallForm)) h
      | cons b word =>
          cases t with
          | nil => rfl
          | cons c t =>
              have hc : sameLetter b c = false := sameLetter_eq_false (hword b (by simp)) ht
              simp [readWord, hc]
  | cons a v ih =>
      cases word with
      | nil => exact absurd (List.nil_prefix (l := (a :: v).map smallForm)) h
      | cons b word =>
          cases hs with
          | @cons _ c _ s hac hs =>
              by_cases hbc : sameLetter b c = true
              · have hsame : smallForm a = smallForm b := sameLetter_of_common (hv a (by simp))
                  (toNat_lt_of_isAlpha (hword b (by simp))) hac hbc
                rw [List.map_cons, List.map_cons, List.cons_prefix_cons, not_and] at h
                simp only [List.cons_append, readWord, hbc, if_true]
                exact ih (fun d hd => hv d (by simp [hd])) (fun d hd => hword d (by simp [hd]))
                  (h hsame.symm) hs
              · simp [readWord, hbc]

/-- No clause begins in a connective. -/
theorem occurrences_connective_append {word : Text} (hword : word ∈ ["AND".toList, "OR".toList])
    (hw : Spells word w) (ht : nextIs isLetterAnyCase t = false) :
    occurrences (w ++ t) = shift w.length (occurrences t) := by
  have hisWord : ∀ word ∈ ["AND".toList, "OR".toList], IsWord word := by decide
  have hbegins : ∀ word ∈ ["AND".toList, "OR".toList], ∀ a ∈ word.tails, a ≠ [] →
      ∀ head ∈ landmarkWords, ¬ head.map smallForm <+: a.map smallForm := by decide
  have hnone : ∀ b, b <:+ w → b ≠ [] → landmarks (b ++ t) = [] := by
    intro b hb hne
    by_contra hlandmark
    obtain ⟨head, hhead, hread⟩ := wordMarks_landmarks.reads _ hlandmark
    obtain ⟨a, rfl⟩ := hb
    have hdrop : Spells (word.drop a.length) b := by
      have := List.forall₂_drop a.length hw
      rwa [List.drop_left] at this
    have hne' : word.drop a.length ≠ [] := by
      intro hnil
      rw [hnil] at hdrop
      cases hdrop
      exact hne rfl
    have hascii : Ascii (word.drop a.length) := fun c hc =>
      (hisWord word hword).ascii c (List.mem_of_mem_drop hc)
    exact hread (readWord_eq_none_of_not_begins hascii (isWord_of_mem_landmarkWords hhead).2
      (hbegins word hword _ ((List.mem_tails _ _).mpr (List.drop_suffix _ _)) hne' head hhead)
      hdrop ht)
  obtain ⟨hmode, hdepth⟩ :=
    (hw.plainText (hisWord word hword)).after (show Scan.start.mode = .plain from rfl)
  rw [occurrences, places, placesFrom_append, placesFrom_eq_nil_of_suffix hnone, List.nil_append,
    wordMarks_landmarks.placesFrom_eq_places ht hmode hdepth]
  rfl

theorem Keyword.connective_startsAt (hk : k ∈ [Keyword.and, .or]) {word : Text}
    (hword : k.words = [word]) (hw : Spells word w)
    (ht : nextIs (fun c => isNameCharAnyCase c || c == '.') t = false) :
    k.startsAt (w ++ t) = true := by
  have hnames : ∀ k ∈ [Keyword.and, .or], (k.name == "FORMAT".toList) = false ∧
      (k.name == "SETTINGS".toList) = false ∧ (k.name == "LIMIT".toList) = false := by decide
  obtain ⟨hformat, hsettings, hlimit⟩ := hnames k hk
  have hread : readWords k.words (w ++ t) = some t := by
    rw [hword]
    exact readWord_spells hw t
  rw [Keyword.startsAt, Keyword.rest?, hread, Option.filter_some, Keyword.isRefused,
    continuesName_eq, ht, hformat, hsettings, hlimit]
  rfl

/-- The connectives of a text that starts with one. -/
theorem connectives_connective_append (hk : k ∈ [Keyword.and, .or]) {word : Text}
    (hword : k.words = [word]) (hw : Spells word w)
    (ht : nextIs (fun c => isNameCharAnyCase c || c == '.') t = false) :
    connectives (w ++ t) = (k, 0) :: shift w.length (connectives t) := by
  have hall : ∀ k ∈ [Keyword.and, .or], ∀ word ∈ k.words, IsWord word ∧
      foreign ["AND".toList, "OR".toList] word.tail = true := by decide
  have hothers : ∀ k ∈ [Keyword.and, .or], ∀ k' ∈ [Keyword.and, .or],
      k' = k ∨ differ (k.words.headD []) (k'.words.headD []) = true := by decide
  obtain ⟨hisWord, hforeign⟩ := hall k hk word (by simp [hword])
  have hhere : keywordsAt [.and, .or] (w ++ t) = [k] :=
    keywordsAt_eq_singleton (by decide) (by decide) hk (hothers k hk)
      (Keyword.connective_startsAt hk hword hw ht)
  have hplaces := wordMarks_connectives.places_word_append hisWord hforeign hw
    (nextIs_letter_of_name ht)
  rw [hhere] at hplaces
  exact hplaces

/-! ## Two texts and a connective between them -/

section Join

variable {word : Text} (hk : k ∈ [Keyword.and, .or]) (hword : k.words = [word]) (hs : Closed s)
  (hw : Spells word w) (hb : Apart s t)

include hk hword hs hw

theorem closed_join (ht : Closed t) : Closed (s ++ (w ++ t)) := by
  have hall : ∀ k ∈ [Keyword.and, .or], ∀ word ∈ k.words, IsWord word := by decide
  have hisWord := hall k hk word (by simp [hword])
  have hne : w ≠ [] := by
    obtain ⟨c, r, rfl, -⟩ := hw.exists_cons hisWord
    exact List.cons_ne_nil c r
  exact hs.append_between (hw.plainText hisWord) hne ht

include hb

theorem connectives_join :
    connectives (s ++ (w ++ t)) =
      connectives s ++ (k, s.length) :: shift (s.length + w.length) (connectives t) := by
  obtain ⟨v, hv, hwords⟩ := Keyword.words_of_connective hk
  obtain rfl : v = word := by simpa [hword] using hwords.symm
  have hplaces := wordMarks_connectives.places_word_between hv hs.level hb.before hw t
  rw [show places (keywordsAt [.and, .or]) (w ++ t) = (k, 0) :: shift w.length (connectives t) from
    connectives_connective_append hk hword hw hb.behind] at hplaces
  rw [connectives, hplaces]
  simp [shift, connectives, Nat.add_comm, Nat.add_left_comm]

theorem occurrences_join :
    occurrences (s ++ (w ++ t)) =
      occurrences s ++ shift (s.length + w.length) (occurrences t) := by
  obtain ⟨v, hv, hwords⟩ := Keyword.words_of_connective hk
  obtain rfl : v = word := by simpa [hword] using hwords.symm
  have hplaces := wordMarks_landmarks.places_word_between hv hs.level hb.before hw t
  rw [show places landmarks (w ++ t) = shift w.length (occurrences t) from
    occurrences_connective_append hv hw (nextIs_letter_of_name hb.behind), shift_shift] at hplaces
  rw [occurrences, hplaces, Nat.add_comm]
  rfl

end Join

/-! ## Blanks around a text -/

theorem Blank.plainText (hg : Blank gap) : PlainText gap := .of_class isBlank (by decide) hg

theorem Blank.append (hg : Blank gap) (hs : Blank s) : Blank (gap ++ s) := fun c hc =>
  (List.mem_append.mp hc).elim (hg c) (hs c)

/-- Behind blanks the scan is where every scan begins. -/
theorem Scan.after_blank (hg : Blank gap) : Scan.start.after gap = Scan.start := by
  obtain ⟨hmode, hdepth⟩ := hg.plainText.after (show Scan.start.mode = .plain from rfl)
  have hword : (Scan.start.after gap).wordStart = true := by
    rw [wordStart_after_iff]
    intro d hd
    have hclasses := isNameChar_or_decimal_of_blank (hg d (List.mem_of_getLast? hd))
    simp only [isNameCharAnyCase, Bool.or_eq_false_iff, beq_eq_false_iff_ne] at hclasses
    exact ⟨hclasses.1.1.1.1.1.1, hclasses.2⟩
  cases hst : Scan.start.after gap
  simp_all [Scan.start]

theorem Blank.any_isLetter (hg : Blank gap) : gap.any isLetterAnyCase = false := by
  rw [List.any_eq_false]
  intro c hc hletter
  have := isBlank_of_letter hletter
  rw [hg c hc] at this
  cases this

theorem WordMarks.places_blank_append (hm : WordMarks words marks) (hg : Blank gap) (s : Text) :
    places marks (gap ++ s) = shift gap.length (places marks s) := by
  rw [places, placesFrom_append, hm.placesFrom_of_not_letters hg.any_isLetter, List.nil_append,
    Scan.after_blank hg]
  rfl

theorem Blank.trimStart_eq (hg : Blank gap) : trimStart gap = [] := by
  have := trimStart_append hg (nextIs_nil isBlank)
  rwa [List.append_nil] at this

theorem Blank.fresh (hg : Blank gap) : Fresh gap := by
  constructor <;> rw [hg.trimStart_eq] <;> rfl

/-- Nothing can tell blanks from the end of the text. -/
theorem Blank.alike (hg : Blank gap) (s : Text) : Alike s gap [] := by
  have hnext : nextIs (fun c => isNameCharAnyCase c || isDecimal c || c == '.') gap = false := by
    cases gap with
    | nil => rfl
    | cons c gap => exact isNameChar_or_decimal_of_blank (hg c (by simp))
  exact alike_of_not_name hg.fresh fresh_nil hnext rfl s

theorem WordMarks.places_append_blank (hm : WordMarks words marks) (hg : Blank gap) (s : Text) :
    places marks (s ++ gap) = places marks s :=
  hm.places_append_of_not_letters (hg.alike s) hg.any_isLetter

theorem Closed.of_blanks {gap' : Text} (hs : Closed s) (hg : Blank gap) (hg' : Blank gap') :
    Closed (gap ++ s ++ gap') :=
  ((closed_append_iff_of_plainText hg.plainText s).mpr hs).append_plainText hg'.plainText

end QuerySplice.Sql
