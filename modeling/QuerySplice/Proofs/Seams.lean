import QuerySplice.Proofs.Locator

/-!
# Seams between the parts of a query

A query is put together from parts. A recogniser that starts in one part might read on into the
next: the rest of a word, the parenthesis of a call behind blanks, or the numbers of a limit. None
does when the next part begins with something else. A reader then takes from the joined text what
it takes from the first part, with the second part left over, and a recogniser answers for the
joined text as it does for the first part alone. Only a word that ends right at the seam looks at
the next character, to see whether it is a longer name.
-/

namespace QuerySplice.Sql

open Text

/-- Nothing that stands in front of the text and a blank is read on into it. -/
structure Fresh (t : Text) : Prop where
  call : readChar '(' (trimStart t) = none
  pair : readChar ',' (trimStart t) = none
  digits : readDigits (trimStart t) = none
  offset : readWord "OFFSET".toList (trimStart t) = none
  by' : readWord "BY".toList (trimStart t) = none

theorem fresh_nil : Fresh [] := ⟨rfl, rfl, rfl, rfl, rfl⟩

/-- A text that spells a word is fresh, unless the word may follow one in front of it. -/
theorem fresh_of_spells {word s : Text} (hw : IsWord word)
    (ho : differ word "OFFSET".toList = true) (hb : differ word "BY".toList = true)
    (hs : Spells word s) (rest : Text) : Fresh (s ++ rest) := by
  have htrim : trimStart (s ++ rest) = s ++ rest :=
    trimStart_append blank_nil (hs.nextIs_isBlank hw rest)
  obtain ⟨c, t, hc, hletter⟩ := hs.exists_cons hw
  have hne {d : Char} (hd : isLetterAnyCase d = false) : c ≠ d := by
    rintro rfl
    exact absurd hletter (by simp [hd])
  constructor <;> rw [htrim]
  · simp [hc, readChar, hne (d := '(') (by decide)]
  · simp [hc, readChar, hne (d := ',') (by decide)]
  · simp [hc, readDigits, isDecimal_of_letter hletter]
  · exact readWord_eq_none_of_differ hw.ascii isWord_offset.ascii ho hs rest
  · exact readWord_eq_none_of_differ hw.ascii isWord_by.ascii hb hs rest

/-- The words that are read in a query. -/
def vocabulary : List Text :=
  locatable.flatMap Keyword.words ++ ["OFFSET".toList, "AND".toList]

/-- The text `t` behind the text `s` goes on with nothing that is begun in `s`: with no digit, with
no part of a clause, and not with the rest of one of the words, where `s` ends in the letter before
that rest. -/
structure Behind (words : List Text) (s t : Text) : Prop where
  fresh : Fresh t
  digit : nextIs isDecimal t = false
  point : nextIs (· == '.') t = false
  word : ∀ word ∈ words, ∀ w v, w :: v <:+ word → v ≠ [] →
    ∀ c ∈ s.getLast?, sameLetter w c = true → readWord v t = none

/-- The last character of the text is the last letter of one of the words, in any case. -/
def EndsInWord (s : Text) : Prop :=
  ∃ c ∈ s.getLast?, ∃ word ∈ vocabulary, ∃ w ∈ word.getLast?, sameLetter w c = true

variable {words : List Text} {s t t' b : Text} {read next : Text → Option Text}

theorem isWord_of_mem_vocabulary {word : Text} (h : word ∈ vocabulary) : IsWord word := by
  have hall : ∀ word ∈ vocabulary, IsWord word := by decide
  exact hall word h

theorem getLast?_of_suffix (hb : b <:+ s) (hne : b ≠ []) : s.getLast? = b.getLast? := by
  obtain ⟨a, rfl⟩ := hb
  exact List.getLast?_append_of_ne_nil a hne

theorem EndsInWord.of_suffix (h : EndsInWord b) (hb : b <:+ s) : EndsInWord s := by
  obtain ⟨c, hc, hword⟩ := h
  have hne : b ≠ [] := by
    rintro rfl
    cases hc
  exact ⟨c, by rwa [getLast?_of_suffix hb hne], hword⟩

theorem EndsInWord.exists_letter (h : EndsInWord s) :
    ∃ c ∈ s.getLast?, isLetterAnyCase c = true := by
  obtain ⟨c, hc, word, hword, w, hw, hsame⟩ := h
  have halpha := (isWord_of_mem_vocabulary hword).2 w (List.mem_of_getLast? hw)
  exact ⟨c, hc, isLetterAnyCase_of_sameLetter halpha hsame⟩

/-! ## Readers -/

/-- What is left over is an end of the text that was read. -/
def Shortens (read : Text → Option Text) : Prop := ∀ {s r}, read s = some r → r <:+ s

theorem shortens_readWord (word : Text) : Shortens (readWord word) := fun h => by
  obtain ⟨t, rfl, -⟩ := readWord_eq_some_iff.mp h
  exact List.suffix_append t _

theorem shortens_readBlanks : Shortens readBlanks := fun h => by
  obtain ⟨gap, rfl, -⟩ := readBlanks_eq_some_iff.mp h
  exact List.suffix_append gap _

theorem shortens_readDigits : Shortens readDigits := fun h => by
  obtain ⟨digits, rfl, -⟩ := readDigits_eq_some_iff.mp h
  exact List.suffix_append digits _

theorem shortens_readChar (c : Char) : Shortens (readChar c) := fun h => by
  rw [readChar_eq_some_iff.mp h]
  exact List.suffix_cons c _

theorem shortens_bind (hr : Shortens read) (hn : Shortens next) :
    Shortens fun s => (read s).bind next := fun h => by
  obtain ⟨a, ha, hb⟩ := Option.bind_eq_some_iff.mp h
  exact (hn hb).trans (hr ha)

theorem trimStart_suffix (s : Text) : trimStart s <:+ s := List.dropWhile_suffix isBlank

theorem shortens_trimStart (hr : Shortens read) : Shortens fun s => read (trimStart s) :=
  fun h => (hr h).trans (trimStart_suffix _)

/-- The reader takes from `s ++ t` what it takes from `s`. -/
def LocalAt (t : Text) (read : Text → Option Text) (s : Text) : Prop :=
  read (s ++ t) = (read s).map (· ++ t)

theorem localAt_bind (hs : Shortens read) (hb : b <:+ s) (hr : LocalAt t read b)
    (hn : ∀ r, r <:+ s → LocalAt t next r) : LocalAt t (fun s => (read s).bind next) b := by
  rw [LocalAt] at hr ⊢
  rw [hr]
  cases hread : read b with
  | none => rfl
  | some r => exact hn r ((hs hread).trans hb)

theorem localAt_getD (hr : LocalAt t read s) :
    (read (s ++ t)).getD (s ++ t) = (read s).getD s ++ t := by
  rw [hr]
  cases read s <;> rfl

theorem suffix_getD (hs : Shortens read) (s : Text) : (read s).getD s <:+ s := by
  cases h : read s with
  | none => exact List.suffix_rfl
  | some r => exact hs h

/-- A word is read on into the text behind the seam nowhere. -/
theorem localAt_readWord (h : Behind words s t) {word : Text} (hword : word ∈ words)
    (hb : b <:+ s) (hne : b ≠ []) : LocalAt t (readWord word) b := by
  have hends : ∀ v, v <:+ word → ∀ b, b <:+ s → b ≠ [] → LocalAt t (readWord v) b := by
    intro v hv
    induction v with
    | nil => exact fun _ _ _ => rfl
    | cons w v ih =>
        intro b hb hne
        cases b with
        | nil => exact absurd rfl hne
        | cons c b =>
            by_cases hc : sameLetter w c = true
            · simp only [LocalAt, List.cons_append, readWord, hc, if_true]
              cases b with
              | nil =>
                  cases v with
                  | nil => rfl
                  | cons w' v =>
                      have hlast : c ∈ s.getLast? := by rw [getLast?_of_suffix hb hne]; rfl
                      exact h.word word hword w (w' :: v) hv (by simp) c hlast hc
              | cons d b =>
                  exact ih ((List.suffix_cons w v).trans hv) (d :: b)
                    ((List.suffix_cons c _).trans hb) (by simp)
            · simp [LocalAt, readWord, hc]
  exact hends word List.suffix_rfl b hb hne

theorem dropWhile_append_of_nextIs {inClass : Char → Bool} (ht : nextIs inClass t = false)
    (s : Text) : (s ++ t).dropWhile inClass = s.dropWhile inClass ++ t := by
  induction s with
  | nil => exact dropWhile_eq_self ht
  | cons c s ih =>
      by_cases hc : inClass c = true
      · simp [hc, ih]
      · simp [hc]

theorem localAt_readDigits (h : Behind words s t) (b : Text) : LocalAt t readDigits b := by
  cases b with
  | nil =>
      have ht := h.digit
      cases t with
      | nil => rfl
      | cons c t => simpa [LocalAt, readDigits] using ht
  | cons c b =>
      by_cases hc : isDecimal c = true
      · simp [LocalAt, readDigits, hc, dropWhile_append_of_nextIs h.digit]
      · simp [LocalAt, readDigits, hc]

theorem localAt_readChar (c : Char) (hne : b ≠ []) : LocalAt t (readChar c) b := by
  cases b with
  | nil => exact absurd rfl hne
  | cons d b =>
      by_cases hd : d = c
      · simp [LocalAt, readChar, hd]
      · simp [LocalAt, readChar, hd]

/-- The blanks at the end of the first part run on into the second. -/
theorem trimStart_append_eq (s t : Text) :
    trimStart (s ++ t) = if trimStart s = [] then trimStart t else trimStart s ++ t := by
  unfold trimStart
  rw [List.dropWhile_append]
  by_cases h : s.dropWhile isBlank = []
  · simp [h]
  · simp [h]

theorem localAt_trimStart (hr : ∀ r, r <:+ b → r ≠ [] → LocalAt t read r)
    (ht : read (trimStart t) = none) (hnil : read [] = none) :
    LocalAt t (fun s => read (trimStart s)) b := by
  rw [LocalAt, trimStart_append_eq]
  split
  · next h => rw [ht, h, hnil]; rfl
  · next h => exact hr _ (trimStart_suffix b) h

theorem localAt_readBlanks (hr : ∀ r, r <:+ b → r ≠ [] → LocalAt t read r)
    (ht : read (trimStart t) = none) (hnil : read [] = none) :
    LocalAt t (fun s => (readBlanks s).bind read) b := by
  cases b with
  | nil =>
      cases t with
      | nil => rfl
      | cons c t =>
          by_cases hc : isBlank c = true
          · have htrim : trimStart (c :: t) = trimStart t := List.dropWhile_cons_of_pos hc
            rw [htrim] at ht
            simp [LocalAt, readBlanks, hc, ht]
          · simp [LocalAt, readBlanks, hc]
  | cons c b =>
      by_cases hc : isBlank c = true
      · have hb := localAt_trimStart (fun r h => hr r (h.trans (List.suffix_cons c b))) ht hnil
        simpa only [LocalAt, List.cons_append, readBlanks, hc, if_true, Option.bind_some] using hb
      · simp [LocalAt, readBlanks, hc]

theorem localAt_readPair (h : Behind words s t) (b : Text) : LocalAt t readPair b := by
  have hcomma (r : Text) (hne : r ≠ []) :
      LocalAt t (fun s => (readChar ',' s).bind fun s => readDigits (trimStart s)) r := by
    refine localAt_bind (shortens_readChar ',') List.suffix_rfl (localAt_readChar ',' hne) ?_
    intro r' _
    exact localAt_trimStart (fun r _ _ => localAt_readDigits h r) h.fresh.digits rfl
  refine localAt_trimStart (fun r _ => hcomma r) ?_ rfl
  rw [h.fresh.pair]
  rfl

theorem localAt_readOffset (h : Behind words s t) (hword : "OFFSET".toList ∈ words)
    (hb : b <:+ s) : LocalAt t readOffset b := by
  have hoffset (r : Text) (hr : r <:+ b) (hne : r ≠ []) :
      LocalAt t (fun s => (readWord "OFFSET".toList s).bind fun s =>
        (readBlanks s).bind readDigits) r := by
    refine localAt_bind (shortens_readWord _) List.suffix_rfl
      (localAt_readWord h hword (hr.trans hb) hne) ?_
    intro r' _
    exact localAt_readBlanks (fun r _ _ => localAt_readDigits h r) h.fresh.digits rfl
  refine localAt_readBlanks hoffset ?_ rfl
  rw [h.fresh.offset]
  rfl

theorem shortens_readPair : Shortens readPair :=
  shortens_trimStart (shortens_bind (shortens_readChar ',') (shortens_trimStart
    shortens_readDigits))

theorem shortens_readLimitNumbers : Shortens readLimitNumbers := fun h => by
  obtain ⟨t, rfl, -⟩ := readLimitNumbers_sound h
  exact List.suffix_append t _

theorem localAt_readLimitNumbers (h : Behind words s t) (hword : "OFFSET".toList ∈ words)
    (hb : b <:+ s) : LocalAt t readLimitNumbers b := by
  have hnumber : LocalAt t (fun s => (readBlanks s).bind readDigits) b :=
    localAt_readBlanks (fun r _ _ => localAt_readDigits h r) h.fresh.digits rfl
  rw [LocalAt] at hnumber ⊢
  rw [readLimitNumbers_eq, readLimitNumbers_eq, hnumber]
  cases hread : (readBlanks b).bind readDigits with
  | none => rfl
  | some r =>
      have hr : r <:+ b := shortens_bind shortens_readBlanks shortens_readDigits hread
      have hpair : (readPair r).getD r <:+ s := ((suffix_getD shortens_readPair r).trans hr).trans hb
      simp only [Option.map_some]
      rw [localAt_getD (localAt_readPair h r), localAt_getD (localAt_readOffset h hword hpair)]

theorem localAt_readLimitBy (h : Behind vocabulary s t) (hb : b <:+ s) :
    LocalAt t readLimitBy b := by
  refine localAt_bind shortens_readLimitNumbers hb
    (localAt_readLimitNumbers h (by decide) hb) fun r hr => ?_
  exact localAt_readBlanks (fun r' hr' => localAt_readWord h (by decide) (hr'.trans hr))
    h.fresh.by' rfl

/-! ## Texts that are cut off -/

theorem readWord_of_append {word : Text} (h : readWord word (t ++ t') = none) :
    readWord word t = none := by
  cases hread : readWord word t with
  | none => rfl
  | some r =>
      obtain ⟨w, rfl, hw⟩ := readWord_eq_some_iff.mp hread
      have hwhole : readWord word ((w ++ r) ++ t') = some (r ++ t') :=
        readWord_eq_some_iff.mpr ⟨w, List.append_assoc .., hw⟩
      rw [hwhole] at h
      cases h

theorem nextIs_of_append {inClass : Char → Bool} (h : nextIs inClass (t ++ t') = false) :
    nextIs inClass t = false := by
  cases t with
  | nil => rfl
  | cons c t => exact h

/-- What a reader does not find behind the blanks of a text it does not find when the text is cut
off. -/
theorem trimStart_of_append {read : Text → Option Text} (hnil : read [] = none)
    (hcut : ∀ {t t'}, read (t ++ t') = none → read t = none)
    (h : read (trimStart (t ++ t')) = none) : read (trimStart t) = none := by
  rw [trimStart_append_eq] at h
  split at h
  · next hblank => rw [hblank, hnil]
  · exact hcut h

theorem Fresh.of_append (h : Fresh (t ++ t')) : Fresh t := by
  have hchar {d : Char} {t t' : Text} (h : readChar d (t ++ t') = none) : readChar d t = none := by
    cases t with
    | nil => rfl
    | cons c t => simpa [readChar] using h
  have hdigits {t t' : Text} (h : readDigits (t ++ t') = none) : readDigits t = none := by
    cases t with
    | nil => rfl
    | cons c t => simpa [readDigits] using h
  exact ⟨trimStart_of_append rfl hchar h.call, trimStart_of_append rfl hchar h.pair,
    trimStart_of_append rfl hdigits h.digits, trimStart_of_append rfl readWord_of_append h.offset,
    trimStart_of_append rfl readWord_of_append h.by'⟩

theorem Behind.of_append (h : Behind words s (t ++ t')) : Behind words s t :=
  ⟨h.fresh.of_append, nextIs_of_append h.digit, nextIs_of_append h.point,
    fun word hword w v hv hne c hc hsame => readWord_of_append (h.word word hword w v hv hne c hc hsame)⟩

/-! ## Words that end at the seam -/

theorem Spells.endsInWord {word : Text} (hw : word ∈ vocabulary) (hs : Spells word b) :
    EndsInWord b := by
  rcases List.eq_nil_or_concat word with rfl | ⟨init, w, hconcat⟩
  · exact absurd rfl (isWord_of_mem_vocabulary hw).1
  · rw [List.concat_eq_append] at hconcat
    obtain ⟨d, hd, hlast⟩ : ∃ d, b.getLast? = some d ∧ sameLetter w d = true := by
      have hrev : List.Forall₂ (fun w c => sameLetter w c = true) (w :: init.reverse) b.reverse := by
        simpa [hconcat] using List.forall₂_reverse_iff.mpr hs
      generalize hb : b.reverse = r at hrev
      cases hrev with
      | @cons _ d _ r hd _ => exact ⟨d, by rw [← List.reverse_reverse b, hb]; simp, hd⟩
    exact ⟨d, hd, word, hw, w, by simp [hconcat], hlast⟩

theorem SpellsWords.endsInWord {words : List Text} (hw : ∀ word ∈ words, word ∈ vocabulary)
    (hs : SpellsWords words b) : EndsInWord b := by
  induction hs with
  | last hs => exact hs.endsInWord (hw _ (by simp))
  | cons hne hs hg ht ih =>
      exact (ih fun word h => hw word (by simp [h])).of_suffix (List.suffix_append _ _)

/-- When the second part is all that is left over, the first part was read to its end. -/
theorem eq_of_append_eq_append {a : Text} (h : s ++ t = a ++ t) : s = a :=
  List.append_cancel_right h

theorem endsInWord_of_readLimitBy (h : readLimitBy (b ++ t) = some t) : EndsInWord b := by
  obtain ⟨x, hx, hrest⟩ := Option.bind_eq_some_iff.mp h
  obtain ⟨y, hy, hby⟩ := Option.bind_eq_some_iff.mp hrest
  obtain ⟨numbers, hnumbers, -⟩ := readLimitNumbers_sound hx
  obtain ⟨gap, rfl, -⟩ := readBlanks_eq_some_iff.mp hy
  obtain ⟨word, rfl, hword⟩ := readWord_eq_some_iff.mp hby
  have hb : b = numbers ++ (gap ++ word) := by
    refine eq_of_append_eq_append (t := t) ?_
    simpa only [List.append_assoc] using hnumbers
  have hsuffix : word <:+ b := by
    rw [hb]
    exact (List.suffix_append gap word).trans (List.suffix_append numbers _)
  exact (hword.endsInWord (by decide)).of_suffix hsuffix

/-! ## What recognisers see -/

/-- A word at the end of `s` goes on to a longer name in front of both texts or of none. -/
structure Alike (s t t' : Text) : Prop where
  left : Behind vocabulary s t
  right : Behind vocabulary s t'
  name : EndsInWord s → nextIs isNameCharAnyCase t = nextIs isNameCharAnyCase t'

theorem nextIs_append_of_ne_nil (inClass : Char → Bool) (hne : b ≠ []) (t : Text) :
    nextIs inClass (b ++ t) = nextIs inClass b := by
  cases b with
  | nil => exact absurd rfl hne
  | cons c b => rfl

theorem nextIs_or (p q : Char → Bool) (s : Text) :
    nextIs (fun c => p c || q c) s = (nextIs p s || nextIs q s) := by
  cases s <;> rfl

theorem continuesCall_append (h : Behind words s t) (b : Text) :
    continuesCall (b ++ t) = continuesCall b := by
  have hcall : LocalAt t (fun s => readChar '(' (trimStart s)) b :=
    localAt_trimStart (fun r _ hne => localAt_readChar '(' hne) h.fresh.call rfl
  rw [LocalAt] at hcall
  rw [continuesCall, hcall, Option.isSome_map, continuesCall]

namespace Alike

variable (h : Alike s t t')

include h

theorem continuesName_eq (hb : b = [] → EndsInWord s) :
    continuesName (b ++ t) = continuesName (b ++ t') := by
  rw [Sql.continuesName_eq, Sql.continuesName_eq]
  by_cases hne : b = []
  · subst hne
    rw [List.nil_append, List.nil_append, nextIs_or, nextIs_or, h.name (hb rfl), h.left.point,
      h.right.point]
  · rw [nextIs_append_of_ne_nil _ hne, nextIs_append_of_ne_nil _ hne]

theorem continuesLimitBy_eq (hb : b <:+ s) :
    continuesLimitBy (b ++ t) = continuesLimitBy (b ++ t') := by
  have hleft := localAt_readLimitBy h.left hb
  have hright := localAt_readLimitBy h.right hb
  rw [Sql.continuesLimitBy_eq, Sql.continuesLimitBy_eq, hleft, hright]
  cases hread : readLimitBy b with
  | none => rfl
  | some r =>
      rw [LocalAt, hread] at hleft
      simp only [Option.map_some, Option.any_some, continuesWord_eq]
      by_cases hne : r = []
      · subst hne
        rw [List.nil_append, List.nil_append,
          h.name ((endsInWord_of_readLimitBy hleft).of_suffix hb)]
      · rw [nextIs_append_of_ne_nil _ hne, nextIs_append_of_ne_nil _ hne]

theorem isRefused_eq (k : Keyword) (hb : b <:+ s) (hend : b = [] → EndsInWord s) :
    k.isRefused (b ++ t) = k.isRefused (b ++ t') := by
  simp only [Keyword.isRefused, h.continuesName_eq hend, h.continuesLimitBy_eq hb,
    continuesCall_append h.left, continuesCall_append h.right]

end Alike

/-- Keywords have one word, or `BY` for their second. -/
def Readable (k : Keyword) : Prop :=
  ∃ word ∈ vocabulary, k.words = [word] ∨ k.words = [word, "BY".toList]

instance (k : Keyword) : Decidable (Readable k) := by
  unfold Readable
  infer_instance

theorem readable_of_locatable {k : Keyword} (hk : k ∈ locatable) : Readable k := by
  have hall : ∀ k ∈ locatable, Readable k := by decide
  exact hall k hk

theorem Readable.mem_vocabulary {k : Keyword} (hk : Readable k) :
    ∀ word ∈ k.words, word ∈ vocabulary := by
  have hby : "BY".toList ∈ vocabulary := by decide
  obtain ⟨word, hword, hwords | hwords⟩ := hk <;> rw [hwords]
  · exact List.forall_mem_singleton.mpr hword
  · exact List.forall_mem_cons.mpr ⟨hword, List.forall_mem_singleton.mpr hby⟩

theorem Readable.isWord {k : Keyword} (hk : Readable k) :
    k.words ≠ [] ∧ ∀ word ∈ k.words, IsWord word := by
  refine ⟨?_, fun word hword => isWord_of_mem_vocabulary (hk.mem_vocabulary word hword)⟩
  obtain ⟨word, -, hwords | hwords⟩ := hk <;> simp [hwords]

theorem localAt_readWords (h : Behind vocabulary s t) {k : Keyword} (hk : Readable k)
    (hb : b <:+ s) (hne : b ≠ []) : LocalAt t (readWords k.words) b := by
  obtain ⟨word, hword, hwords | hwords⟩ := hk
  · rw [hwords]
    exact localAt_readWord h hword hb hne
  · rw [hwords]
    have hby (r : Text) (hr : r <:+ s) :
        LocalAt t (fun s => (readBlanks s).bind (readWord "BY".toList)) r :=
      localAt_readBlanks (fun r' hr' => localAt_readWord h (by decide) (hr'.trans hr))
        h.fresh.by' rfl
    exact localAt_bind (shortens_readWord word) hb (localAt_readWord h hword hb hne) hby

namespace Alike

variable (h : Alike s t t') {k : Keyword} (hk : Readable k) (hb : b <:+ s) (hne : b ≠ [])

include h hk hb hne

/-- A keyword that starts in the first part leaves over the same of it in front of both texts. -/
theorem rest?_eq : ∃ rest : Option Text,
    k.rest? (b ++ t) = rest.map (· ++ t) ∧ k.rest? (b ++ t') = rest.map (· ++ t') := by
  have hleft := localAt_readWords h.left hk hb hne
  have hright := localAt_readWords h.right hk hb hne
  rw [Keyword.rest?, Keyword.rest?, hleft, hright]
  cases hread : readWords k.words b with
  | none => exact ⟨none, rfl, rfl⟩
  | some r =>
      obtain ⟨w, rfl, hw⟩ := (readWords_eq_some_iff hk.isWord.1 hk.isWord.2).mp hread
      have hr : r <:+ s := (List.suffix_append w r).trans hb
      have hend : r = [] → EndsInWord s := by
        rintro rfl
        rw [List.append_nil] at hb
        exact (hw.endsInWord hk.mem_vocabulary).of_suffix hb
      refine ⟨if k.isRefused (r ++ t') then none else some r, ?_, ?_⟩ <;>
        simp only [Option.map_some, Option.filter_some, h.isRefused_eq k hr hend] <;>
        cases k.isRefused (r ++ t') <;> rfl

theorem startsAt_eq : k.startsAt (b ++ t) = k.startsAt (b ++ t') := by
  obtain ⟨rest, hleft, hright⟩ := h.rest?_eq hk hb hne
  rw [Keyword.startsAt, Keyword.startsAt, hleft, hright, Option.isSome_map, Option.isSome_map]

omit hk in
theorem startsLimitBy_eq : startsLimitBy (b ++ t) = startsLimitBy (b ++ t') := by
  have hword : "LIMIT".toList ∈ vocabulary := by decide
  have hleft := localAt_readWord h.left hword hb hne
  have hright := localAt_readWord h.right hword hb hne
  rw [startsLimitBy, startsLimitBy, hleft, hright]
  cases hread : readWord "LIMIT".toList b with
  | none => rfl
  | some r => exact h.continuesLimitBy_eq ((shortens_readWord _ hread).trans hb)

end Alike

/-! ## Parts that are joined by a blank -/

/-- A text that starts with no character of a word or number and goes on with no part of a clause
stands behind every text. -/
theorem behind_of_not_name (hwords : ∀ word ∈ words, IsWord word) (hfresh : Fresh t)
    (ht : nextIs (fun c => isNameCharAnyCase c || isDecimal c || c == '.') t = false) (s : Text) :
    Behind words s t := by
  rw [nextIs_or, nextIs_or, Bool.or_eq_false_iff, Bool.or_eq_false_iff] at ht
  obtain ⟨⟨hname, hdigit⟩, hpoint⟩ := ht
  refine ⟨hfresh, hdigit, hpoint, fun word hword w v hv hne c _ _ => ?_⟩
  cases v with
  | nil => exact absurd rfl hne
  | cons w' v =>
      have hletter : w'.isAlpha = true := by
        refine (hwords word hword).2 w' (hv.subset ?_)
        simp
      cases t with
      | nil => rfl
      | cons d t =>
          have hd : isLetterAnyCase d = false := by
            simp only [nextIs_cons, isNameCharAnyCase, isNameChar, Char.isAlphanum,
              Bool.or_eq_false_iff] at hname
            simp only [isLetterAnyCase, hname, Bool.or_false]
          simp [readWord, sameLetter_eq_false hletter hd]

theorem Fresh.blank_cons (ht : Fresh t) : Fresh (' ' :: t) := by
  have htrim : trimStart (' ' :: t) = trimStart t := List.dropWhile_cons_of_pos (by decide)
  constructor <;> rw [htrim]
  exacts [ht.call, ht.pair, ht.digits, ht.offset, ht.by']

/-- Two texts that start with no character of a word or number cannot be told apart. -/
theorem alike_of_not_name (ht : Fresh t) (ht' : Fresh t')
    (hn : nextIs (fun c => isNameCharAnyCase c || isDecimal c || c == '.') t = false)
    (hn' : nextIs (fun c => isNameCharAnyCase c || isDecimal c || c == '.') t' = false)
    (s : Text) : Alike s t t' := by
  have hleft := behind_of_not_name (fun _ => isWord_of_mem_vocabulary) ht hn s
  have hright := behind_of_not_name (fun _ => isWord_of_mem_vocabulary) ht' hn' s
  refine ⟨hleft, hright, fun _ => ?_⟩
  rw [nextIs_or, nextIs_or, Bool.or_eq_false_iff, Bool.or_eq_false_iff] at hn hn'
  rw [hn.1.1, hn'.1.1]

/-- A blank and a fresh text look like the end of the query. -/
theorem alike_seam (ht : Fresh t) (s : Text) : Alike s (' ' :: t) [] :=
  alike_of_not_name ht.blank_cons fresh_nil
    (show (isNameCharAnyCase ' ' || isDecimal ' ' || ' ' == '.') = false by decide) rfl s

theorem Keyword.startsAt_eq_false_of_not_letter {k : Keyword} (hk : Readable k)
    (hs : nextIs isLetterAnyCase s = false) : k.startsAt s = false := by
  rw [Keyword.startsAt, Keyword.rest?]
  cases hread : readWords k.words s with
  | none => rfl
  | some r =>
      obtain ⟨w, rfl, hw⟩ := (readWords_eq_some_iff hk.isWord.1 hk.isWord.2).mp hread
      obtain ⟨c, w, rfl, hc⟩ := hw.exists_cons hk.isWord.2
      simp [hc] at hs

theorem startsAt_append_seam (ht : Fresh t) {k : Keyword} (hk : k ∈ locatable) (s : Text) :
    k.startsAt (s ++ ' ' :: t) = k.startsAt s := by
  have hread := readable_of_locatable hk
  by_cases hne : s = []
  · subst hne
    have hblank : nextIs isLetterAnyCase (' ' :: t) = false :=
      show isLetterAnyCase ' ' = false by decide
    exact (Keyword.startsAt_eq_false_of_not_letter hread hblank).trans
      (Keyword.startsAt_eq_false_of_not_letter hread (nextIs_nil _)).symm
  · simpa using (alike_seam ht s).startsAt_eq hread List.suffix_rfl hne

/-! ## First places -/

theorem firstFrom_lt_length {accepts : Text → Bool} {st : Scan} {s : Text} {p : Nat}
    (h : firstFrom accepts st s = some p) : p < s.length := by
  obtain ⟨a, c, b, rfl, rfl, -⟩ := (firstFrom_eq_some_iff.mp h).1
  simp

/-- A first place that is found in the first part stays the first one. -/
theorem firstFrom_append_of_some {accepts : Text → Bool}
    (hseam : ∀ s, accepts (s ++ ' ' :: t) = accepts s) {st : Scan} {s : Text} {p : Nat}
    (h : firstFrom accepts st s = some p) : firstFrom accepts st (s ++ ' ' :: t) = some p := by
  induction s generalizing st p with
  | nil => cases h
  | cons c s ih =>
      have haccepts : accepts (c :: (s ++ ' ' :: t)) = accepts (c :: s) := hseam (c :: s)
      rw [List.cons_append, firstFrom, haccepts]
      rw [firstFrom] at h
      split at h
      · next htop =>
          rw [if_pos htop]
          exact h
      · next htop =>
          obtain ⟨q, hq, rfl⟩ := Option.map_eq_some_iff.mp h
          rw [if_neg htop, ih hq, Option.map_some]

theorem position?_append_of_some (ht : Fresh t) {k : Keyword} (hk : k ∈ locatable) {s : Text}
    {p : Nat} (h : k.position? s = some p) :
    k.position? (s ++ ' ' :: t) = some p ∧ p < s.length := by
  have hwords : k.words.isEmpty = false := by simpa using (locatable_words hk).1
  rw [Keyword.position?, hwords, if_neg (by simp)] at h ⊢
  exact ⟨firstFrom_append_of_some (startsAt_append_seam ht hk) h, firstFrom_lt_length h⟩

end QuerySplice.Sql
