import Mathlib.Logic.Function.Basic
import QuerySplice.Sql.Edit
import QuerySplice.Proofs.Landmarks

/-!
# Clause records

A query is built from a head and optional segments, one for each landmark, with single blanks
between them. A segment is a closed text whose only landmark is its own, at its start; the head and
the fragments that are written into a query have none. Each of them ends neither in a blank nor in
a semicolon, so the parts of a query can be told apart again: the locators find exactly the
segments of a record at the places where they were put.
-/

namespace QuerySplice.Sql

open Text

/-- The text ends neither in a blank nor in a semicolon. -/
def EndsClean (s : Text) : Prop := ∀ c ∈ s.getLast?, isBlank c = false ∧ c ≠ ';'

instance (s : Text) : Decidable (EndsClean s) :=
  decidable_of_iff ((s.getLast?.all fun c => !isBlank c && c != ';') = true) (by
    simp only [Option.all_eq_true, Bool.and_eq_true, Bool.not_eq_true', bne_iff_ne, EndsClean,
      Option.mem_def, ne_eq])

/-- A limit of rows: the word `LIMIT` and one number or two with a comma, with or without an
offset. -/
def IsRowLimit (s : Text) : Prop :=
  ∃ word numbers, s = word ++ numbers ∧ Spells "LIMIT".toList word ∧ LimitNumbers numbers

/-- A closed text without landmarks. -/
structure Fragment where
  text : Text
  nonempty : text ≠ []
  closed : Closed text
  quiet : occurrences text = []
  clean : EndsClean text

/-- A closed text whose only landmark is `l` at its start. -/
structure Segment (l : Landmark) where
  text : Text
  closed : Closed text
  marked : occurrences text = [(l, 0)]
  clean : EndsClean text
  rowLimit : l = .clause .limit → IsRowLimit text

/-- A query as the list of its parts. The last two clauses may stand in either order. -/
structure Record where
  head : Fragment
  segment : (l : Landmark) → Option (Segment l)
  formatFirst : Bool

/-! ## Clean ends -/

variable {s t : Text}

theorem endsClean_append_iff (ht : t ≠ []) (s : Text) : EndsClean (s ++ t) ↔ EndsClean t := by
  rw [EndsClean, List.getLast?_append_of_ne_nil _ ht, EndsClean]

theorem trimEnd_append_blank (s : Text) : trimEnd (s ++ [' ']) = trimEnd s := by
  rw [trimEnd, List.reverse_append, List.reverse_singleton, List.singleton_append,
    List.dropWhile_cons_of_pos (by decide), trimEnd]

theorem EndsClean.trimEnd_eq (hs : EndsClean s) : trimEnd s = s := by
  rcases List.eq_nil_or_concat s with rfl | ⟨s, c, rfl⟩
  · rfl
  · have hc : isBlank c = false := (hs c (by simp)).1
    rw [trimEnd, List.concat_eq_append, List.reverse_append, List.reverse_singleton,
      List.singleton_append, List.dropWhile_cons_of_neg (by simp [hc]), List.reverse_cons,
      List.reverse_reverse]

theorem EndsClean.trimTerminator_eq (hs : EndsClean s) : trimTerminator s = s := by
  rw [trimTerminator, hs.trimEnd_eq]
  split
  · next h => exact absurd rfl (hs ';' h).2
  · rfl

/-- One semicolon at the end is dropped. -/
theorem EndsClean.trimTerminator_semicolon (hs : EndsClean s) :
    trimTerminator (s ++ [';']) = s := by
  have hlast : trimEnd (s ++ [';']) = s ++ [';'] := by
    rw [trimEnd, List.reverse_append, List.reverse_singleton, List.singleton_append,
      List.dropWhile_cons_of_neg (by decide), List.reverse_cons, List.reverse_reverse]
  rw [trimTerminator, hlast, List.getLast?_append_of_ne_nil _ (by simp)]
  change trimEnd (s ++ [';']).dropLast = s
  rw [List.dropLast_concat, hs.trimEnd_eq]

theorem EndsClean.trimStart_ne_nil (hs : EndsClean s) (hne : s ≠ []) : trimStart s ≠ [] := by
  intro h
  obtain ⟨gap, hgap, hblank⟩ := exists_blank_append s
  rw [h, List.append_nil] at hgap
  have hlast := (hs (s.getLast hne) (List.getLast?_eq_some_getLast hne)).1
  rw [hblank _ (hgap ▸ List.getLast_mem hne)] at hlast
  cases hlast

theorem endsClean_trimStart (hs : EndsClean s) : EndsClean (trimStart s) := by
  by_cases hnil : trimStart s = []
  · rw [hnil]
    intro c hc
    cases hc
  · obtain ⟨gap, hgap, -⟩ := exists_blank_append s
    rw [hgap] at hs
    exact (endsClean_append_iff hnil gap).mp hs

/-! ## Segments -/

theorem readWord_spells {word w : Text} (hs : Spells word w) (rest : Text) :
    readWord word (w ++ rest) = some rest :=
  readWord_eq_some_iff.mpr ⟨w, rfl, hs⟩

/-- The reader of limits reads a limit of rows to its end, and nothing else. -/
theorem isRowLimit_iff (s : Text) : IsRowLimit s ↔ readLimit s = some [] := by
  have hbind : readLimit s = (readWord "LIMIT".toList s).bind readLimitNumbers := rfl
  rw [hbind, Option.bind_eq_some_iff]
  constructor
  · rintro ⟨word, numbers, rfl, hword, hnumbers⟩
    have hread : readLimitNumbers (numbers ++ []) = some [] :=
      readLimitNumbers_append hnumbers rfl rfl rfl
    rw [List.append_nil] at hread
    exact ⟨numbers, readWord_spells hword numbers, hread⟩
  · rintro ⟨rest, hword, hread⟩
    obtain ⟨word, rfl, hspells⟩ := readWord_eq_some_iff.mp hword
    obtain ⟨numbers, hrest, hnumbers⟩ := readLimitNumbers_sound hread
    rw [List.append_nil] at hrest
    exact ⟨word, rest, rfl, hspells, hrest ▸ hnumbers⟩

instance (s : Text) : Decidable (IsRowLimit s) := decidable_of_iff _ (isRowLimit_iff s).symm

namespace Segment

variable {l : Landmark} (t : Segment l)

theorem startsAt : l.startsAt t.text = true := by
  have hmem : (l, 0) ∈ occurrences t.text := by
    rw [t.marked]
    exact List.mem_singleton_self _
  exact mem_landmarks.mp (mem_marks_of_mem_placesFrom hmem)

theorem text_ne_nil : t.text ≠ [] := by
  intro h
  have hmarked := t.marked
  rw [h] at hmarked
  cases hmarked

/-- Nothing in front of a segment is read on into it. -/
theorem fresh (rest : Text) : Fresh (t.text ++ rest) :=
  ((Landmark.headed t.startsAt).append rest).fresh

end Segment

/-! ## Segments behind a text -/

/-- Segments with a blank before each. -/
def joined (segments : List (Σ l, Segment l)) : Text :=
  segments.flatMap fun p => ' ' :: p.2.text

variable {p : Σ l, Segment l} {ps : List (Σ l, Segment l)} {ls : List Landmark} {c : Clause}

@[simp] theorem joined_nil : joined [] = [] := rfl

theorem joined_cons (p : Σ l, Segment l) (ps : List (Σ l, Segment l)) :
    joined (p :: ps) = ' ' :: (p.2.text ++ joined ps) := rfl

theorem joined_append (ps qs : List (Σ l, Segment l)) :
    joined (ps ++ qs) = joined ps ++ joined qs := List.flatMap_append

theorem closed_append_joined (hs : Closed s) (ps : List (Σ l, Segment l)) :
    Closed (s ++ joined ps) := by
  induction ps generalizing s with
  | nil => simpa using hs
  | cons p ps ih =>
      rw [joined_cons]
      exact hs.append (ih p.2.closed)

theorem endsClean_append_joined (hs : EndsClean s) (ps : List (Σ l, Segment l)) :
    EndsClean (s ++ joined ps) := by
  induction ps generalizing s with
  | nil => simpa using hs
  | cons p ps ih =>
      have hne : ' ' :: (p.2.text ++ joined ps) ≠ [] := by simp
      have hne' : p.2.text ++ joined ps ≠ [] := by simp [p.2.text_ne_nil]
      rw [joined_cons, endsClean_append_iff hne, ← List.singleton_append,
        endsClean_append_iff hne']
      exact ih p.2.clean

theorem occurrences_joined_cons (hs : Closed s) (p : Σ l, Segment l) (ps : List (Σ l, Segment l)) :
    occurrences (s ++ joined (p :: ps)) =
      occurrences s ++ shift (s.length + 1) (occurrences (p.2.text ++ joined ps)) := by
  rw [joined_cons]
  exact wordMarks_landmarks.places_seam hs.level (p.2.fresh _)

/-- Only the landmarks of the text and of the segments behind it occur. -/
theorem mem_occurrences_joined (hs : Closed s) (ps : List (Σ l, Segment l)) :
    ∀ q ∈ occurrences (s ++ joined ps), q ∈ occurrences s ∨ q.1 ∈ ps.map Sigma.fst := by
  induction ps generalizing s with
  | nil =>
      intro q hq
      exact Or.inl (by simpa using hq)
  | cons p ps ih =>
      intro q hq
      rw [occurrences_joined_cons hs] at hq
      rcases List.mem_append.mp hq with hq | hq
      · exact Or.inl hq
      · obtain ⟨q', hq', rfl⟩ := mem_shift.mp hq
        rcases ih p.2.closed q' hq' with h | h
        · rw [p.2.marked, List.mem_singleton] at h
          exact Or.inr (by simp [h])
        · exact Or.inr (by simp [h])

/-- Behind a text without any of the landmarks, the first segment is their first occurrence. -/
theorem find?_occurrences_joined (hs : Closed s) (hquiet : ∀ q ∈ occurrences s, q.1 ∉ ls)
    (hps : ∀ p ∈ ps.head?, p.1 ∈ ls) :
    ((occurrences (s ++ joined ps)).find? fun q => ls.contains q.1).map (·.2) =
      ps.head?.map fun _ => s.length + 1 := by
  have hnone : (occurrences s).find? (fun q => ls.contains q.1) = none := by
    rw [List.find?_eq_none]
    intro q hq hmem
    exact hquiet q hq (List.contains_iff_mem.mp hmem)
  cases ps with
  | nil => rw [joined_nil, List.append_nil, hnone]; rfl
  | cons p ps =>
      have hfirst : ((occurrences (p.2.text ++ joined ps)).find? fun q => ls.contains q.1) =
          some (p.1, 0) := by
        have hmem : ls.contains p.1 = true := List.contains_iff_mem.mpr (hps p rfl)
        cases ps with
        | nil => simp only [joined_nil, List.append_nil, p.2.marked, List.find?_cons, hmem]
        | cons q ps =>
            simp only [occurrences_joined_cons p.2.closed, p.2.marked, List.singleton_append,
              List.find?_cons, hmem]
      rw [occurrences_joined_cons hs, List.find?_append, hnone, Option.none_or,
        find?_shift (fun l => ls.contains l), hfirst]
      simp

/-! ## Records as texts -/

namespace Record

/-- The landmarks in the order in which a record is written. -/
def orderOf (formatFirst : Bool) : List Landmark :=
  [.clause .filter, .clause .group, .clause .order, .perGroup, .clause .limit] ++
    if formatFirst then [.clause .format, .clause .settings]
    else [.clause .settings, .clause .format]

def order (r : Record) : List Landmark := orderOf r.formatFirst

/-- The segments that the record has for these landmarks. -/
def segments (r : Record) (ls : List Landmark) : List (Σ l, Segment l) :=
  ls.filterMap fun l => (r.segment l).map (Sigma.mk l)

/-- The text of the record: its parts with single blanks between them. -/
def render (r : Record) : Text := r.head.text ++ joined (r.segments r.order)

/-- The record with another segment for `l`, or with none. -/
def set (r : Record) (l : Landmark) (t : Option (Segment l)) : Record :=
  { r with segment := Function.update r.segment l t }

def before (r : Record) (l : Landmark) : List Landmark := r.order.takeWhile (· != l)

def behind (r : Record) (l : Landmark) : List Landmark := (r.order.dropWhile (· != l)).tail

/-- What is written in front of the segment for `l`. -/
def lead (r : Record) (l : Landmark) : Text := r.head.text ++ joined (r.segments (r.before l))

/-- The segments that are written behind the one for `l`. -/
def trail (r : Record) (l : Landmark) : List (Σ l, Segment l) := r.segments (r.behind l)

@[simp] theorem set_self (r : Record) (l : Landmark) (t : Option (Segment l)) :
    (r.set l t).segment l = t := by
  simp [set]

theorem set_of_ne (r : Record) {l l' : Landmark} (h : l' ≠ l) (t : Option (Segment l)) :
    (r.set l t).segment l' = r.segment l' := by
  simp [set, h]

theorem set_segment (r : Record) (l : Landmark) : r.set l (r.segment l) = r := by
  simp [set]

theorem set_none_of_none (r : Record) {l : Landmark} (h : r.segment l = none) :
    r.set l none = r := by
  rw [← h]
  exact r.set_segment l

theorem set_set (r : Record) (l : Landmark) (t t' : Option (Segment l)) :
    (r.set l t).set l t' = r.set l t' := by
  simp [set]

variable (r : Record) {l : Landmark}

theorem order_eq (l : Landmark) : r.order = r.before l ++ l :: r.behind l := by
  have hall : ∀ b, ∀ l ∈ Landmark.all, orderOf b =
      (orderOf b).takeWhile (· != l) ++ l :: ((orderOf b).dropWhile (· != l)).tail := by decide
  exact hall r.formatFirst l l.mem_all

theorem ne_of_mem_before_or_behind {l' : Landmark} (h : l' ∈ r.before l ∨ l' ∈ r.behind l) :
    l' ≠ l := by
  have hnodup : ∀ b, (orderOf b).Nodup := by decide
  have hall : r.order.Nodup := hnodup r.formatFirst
  rw [r.order_eq l, List.nodup_append] at hall
  rcases h with h | h
  · exact hall.2.2 l' h l List.mem_cons_self
  · rintro rfl
    exact (List.nodup_cons.mp hall.2.1).1 h

theorem segments_append (ls ls' : List Landmark) :
    r.segments (ls ++ ls') = r.segments ls ++ r.segments ls' := List.filterMap_append

theorem segments_congr {r r' : Record} {ls : List Landmark}
    (h : ∀ l ∈ ls, r.segment l = r'.segment l) : r.segments ls = r'.segments ls :=
  List.filterMap_congr fun l hl => by rw [h l hl]

theorem mem_of_mem_segments {ls : List Landmark} {p : Σ l, Segment l} (h : p ∈ r.segments ls) :
    p.1 ∈ ls := by
  obtain ⟨l, hl, hp⟩ := List.mem_filterMap.mp h
  obtain ⟨t, -, rfl⟩ := Option.map_eq_some_iff.mp hp
  exact hl

theorem lead_set (l : Landmark) (t : Option (Segment l)) : (r.set l t).lead l = r.lead l := by
  have hsegments : (r.set l t).segments (r.before l) = r.segments (r.before l) :=
    segments_congr fun _ hl => r.set_of_ne (r.ne_of_mem_before_or_behind (Or.inl hl)) t
  exact congrArg (fun ps => r.head.text ++ joined ps) hsegments

theorem trail_set (l : Landmark) (t : Option (Segment l)) : (r.set l t).trail l = r.trail l :=
  segments_congr fun _ hl => r.set_of_ne (r.ne_of_mem_before_or_behind (Or.inr hl)) t

/-- A record is written around the place of one landmark. -/
theorem render_eq (l : Landmark) :
    r.render = r.lead l ++ joined (((r.segment l).map (Sigma.mk l)).toList ++ r.trail l) := by
  have hmid : r.segments (l :: r.behind l) =
      ((r.segment l).map (Sigma.mk l)).toList ++ r.trail l := by
    rw [segments, List.filterMap_cons]
    cases r.segment l <;> rfl
  rw [render, r.order_eq l, segments_append, joined_append, hmid, lead, List.append_assoc]

theorem render_of_none (h : r.segment l = none) : r.render = r.lead l ++ joined (r.trail l) := by
  rw [r.render_eq l, h]
  rfl

theorem render_of_some {t : Segment l} (h : r.segment l = some t) :
    r.render = r.lead l ++ joined (⟨l, t⟩ :: r.trail l) := by
  rw [r.render_eq l, h]
  rfl

theorem render_set_none (l : Landmark) :
    (r.set l none).render = r.lead l ++ joined (r.trail l) := by
  rw [render_of_none _ (r.set_self l none), lead_set, trail_set]

theorem render_set_some (t : Segment l) :
    (r.set l (some t)).render = r.lead l ++ joined (⟨l, t⟩ :: r.trail l) := by
  rw [render_of_some _ (r.set_self l (some t)), lead_set, trail_set]

theorem closed_lead (l : Landmark) : Closed (r.lead l) := closed_append_joined r.head.closed _

theorem endsClean_lead (l : Landmark) : EndsClean (r.lead l) :=
  endsClean_append_joined r.head.clean _

theorem endsClean_render : EndsClean r.render := endsClean_append_joined r.head.clean _

theorem render_ne_nil : r.render ≠ [] := by simp [render, r.head.nonempty]

/-- Only landmarks of earlier segments occur in front of a segment. -/
theorem mem_before_of_mem_occurrences_lead {q : Landmark × Nat}
    (h : q ∈ occurrences (r.lead l)) : q.1 ∈ r.before l := by
  rcases mem_occurrences_joined r.head.closed _ q h with h | h
  · rw [r.head.quiet] at h
    cases h
  · obtain ⟨p, hp, hq⟩ := List.mem_map.mp h
    rw [← hq]
    exact r.mem_of_mem_segments hp

end Record

/-- A query with an `OR` in its predicate and a limit of two numbers. -/
def disjunctionWithLimit : Record where
  head := ⟨"SELECT a FROM t".toList, by decide, by decide, by decide, by decide⟩
  segment
    | .clause .filter => some ⟨"WHERE a OR b".toList, by decide, by decide, by decide, by decide⟩
    | .clause .limit => some ⟨"LIMIT 5, 6".toList, by decide, by decide, by decide, by decide⟩
    | _ => none
  formatFirst := false

example : disjunctionWithLimit.render = "SELECT a FROM t WHERE a OR b LIMIT 5, 6".toList := by
  decide

end QuerySplice.Sql
