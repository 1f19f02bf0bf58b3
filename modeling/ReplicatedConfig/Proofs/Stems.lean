import Mathlib.Data.List.Perm.Basic
import ReplicatedConfig.Adapter.Transforms

/-!
# Stems

A pipeline is given stems in any number of calls, and cuts the first stem that fits off every key.
That this is the longest one, and that it does not matter how the stems were given, both come from
the form in which stems are kept.

## One list for each set of stems

`Ranked` lists have their stems in the order of `stemBefore`, each only once.  The order is total
and has no ties, so there is only one ranked list with given members (`eq_of_ranked`).  Sorting
makes equal stems neighbours and `dropRepeats` then leaves one of them, so every call ranks the
stems anew (`ranked_withStems`), and grouping and order of the calls are forgotten.

## What is cut off

`Begins` compares bytes, as a program that looks for a stem at the beginning of a key would.  Since
no encoding of a character is the beginning of another one, the end of a stem that fits is always
between two characters (`begins_iff_append`).  `Trims` says what is left of a key without saying
how a stem is looked for, and leaves no choice (`Trims.unique`): two stems that fit one key and are
equally long are one stem.
-/

namespace ReplicatedConfig
namespace Pipeline

/-! ## The order of stems -/

section Order

variable {a b c stem : String} {l m : List String}

theorem stemBefore_iff : stemBefore a b = true ↔
    b.utf8ByteSize < a.utf8ByteSize ∨ a.utf8ByteSize = b.utf8ByteSize ∧ a ≤ b := by
  rw [stemBefore, Bool.or_eq_true, Bool.and_eq_true, decide_eq_true_eq, beq_iff_eq,
    Bool.not_eq_true', decide_eq_false_iff_not, String.not_lt]

theorem size_le_of_stemBefore (h : stemBefore a b = true) : b.utf8ByteSize ≤ a.utf8ByteSize := by
  rcases stemBefore_iff.1 h with hlt | ⟨heq, -⟩
  · exact Nat.le_of_lt hlt
  · exact Nat.le_of_eq heq.symm

theorem stemBefore_trans (hab : stemBefore a b = true) (hbc : stemBefore b c = true) :
    stemBefore a c = true := by
  have hba := size_le_of_stemBefore hab
  have hcb := size_le_of_stemBefore hbc
  rw [stemBefore_iff] at hab hbc ⊢
  rcases hab with hlt | ⟨hsize, hab⟩
  · exact .inl (Nat.lt_of_le_of_lt hcb hlt)
  · rcases hbc with hlt | ⟨hsize', hbc⟩
    · exact .inl (Nat.lt_of_lt_of_le hlt hba)
    · exact .inr ⟨hsize.trans hsize', String.le_trans hab hbc⟩

theorem stemBefore_total (a b : String) : (stemBefore a b || stemBefore b a) = true := by
  rw [Bool.or_eq_true, stemBefore_iff, stemBefore_iff]
  rcases Nat.lt_trichotomy a.utf8ByteSize b.utf8ByteSize with hlt | heq | hgt
  · exact .inr (.inl hlt)
  · rcases String.le_total a b with hle | hle
    · exact .inl (.inr ⟨heq, hle⟩)
    · exact .inr (.inr ⟨heq.symm, hle⟩)
  · exact .inl (.inl hgt)

/-- There are no ties. -/
theorem stemBefore_antisymm (hab : stemBefore a b = true) (hba : stemBefore b a = true) :
    a = b := by
  have hsize := Nat.le_antisymm (size_le_of_stemBefore hba) (size_le_of_stemBefore hab)
  rw [stemBefore_iff] at hab hba
  rcases hab with hlt | ⟨-, hab⟩
  · exact absurd hsize (Nat.ne_of_gt hlt)
  · rcases hba with hlt | ⟨-, hba⟩
    · exact absurd hsize (Nat.ne_of_lt hlt)
    · exact String.le_antisymm hab hba

/-- Stems in order, each only once. -/
def Ranked (l : List String) : Prop := l.Pairwise fun a b => stemBefore a b = true ∧ a ≠ b

theorem ranked_nil : Ranked [] := .nil

theorem Ranked.nodup (h : Ranked l) : l.Nodup := h.imp fun hab => hab.2

/-- The longest comes first. -/
theorem Ranked.sizes (h : Ranked l) : l.Pairwise fun a b => b.utf8ByteSize ≤ a.utf8ByteSize :=
  h.imp fun hab => size_le_of_stemBefore hab.1

/-- Ranked lists with the same members are the same. -/
theorem eq_of_ranked (hl : Ranked l) (hm : Ranked m) (h : ∀ stem, stem ∈ l ↔ stem ∈ m) : l = m := by
  have hperm := (List.perm_ext_iff_of_nodup hl.nodup hm.nodup).2 h
  refine hperm.eq_of_pairwise (fun a b _ _ hab hba => ?_) hl hm
  exact stemBefore_antisymm hab.1 hba.1

/-! ## Stems as they are kept -/

theorem mem_dropRepeats : stem ∈ dropRepeats l ↔ stem ∈ l := by
  fun_induction dropRepeats l with
  | case1 => rfl
  | case2 a => rfl
  | case3 a rest ih =>
    rw [ih]
    refine ⟨List.mem_cons_of_mem a, fun h => ?_⟩
    rcases List.mem_cons.1 h with rfl | h
    · exact List.mem_cons_self
    · exact h
  | case4 a b rest hne ih => rw [List.mem_cons, ih, ← List.mem_cons]

/-- In a sorted list all repetitions are neighbours. -/
theorem ranked_dropRepeats (h : l.Pairwise (stemBefore · · = true)) : Ranked (dropRepeats l) := by
  fun_induction dropRepeats l with
  | case1 => exact .nil
  | case2 a => exact List.pairwise_singleton _ a
  | case3 a rest ih => exact ih (List.pairwise_cons.1 h).2
  | case4 a b rest hne ih =>
    obtain ⟨ha, hrest⟩ := List.pairwise_cons.1 h
    refine List.pairwise_cons.2 ⟨fun c hc => ?_, ih hrest⟩
    rw [mem_dropRepeats] at hc
    refine ⟨ha c hc, ?_⟩
    rintro rfl
    rcases List.mem_cons.1 hc with hab | hc
    · exact hne hab
    · -- If `a` came again behind `b`, then `b` would be both behind and before it.
      have hba : stemBefore b a = true := (List.pairwise_cons.1 hrest).1 a hc
      exact hne (stemBefore_antisymm (ha b List.mem_cons_self) hba)

variable {p : Pipeline}

theorem ranked_withStems (p : Pipeline) (more : List String) : Ranked (p.withStems more).stems := by
  refine ranked_dropRepeats ?_
  exact @List.pairwise_mergeSort _ stemBefore (fun _ _ _ => stemBefore_trans) stemBefore_total _

theorem mem_withStems {more : List String} :
    stem ∈ (p.withStems more).stems ↔ stem ∈ p.stems ∨ stem ∈ more ∧ stem ≠ "" := by
  rw [withStems, mem_dropRepeats, List.mem_mergeSort, List.mem_append, List.mem_filter,
    decide_eq_true_eq]

/-- The stems that are given in a series of calls; the empty one cuts nothing off and counts for
nothing. -/
def Given (calls : List (List String)) (stem : String) : Prop :=
  stem ≠ "" ∧ ∃ more ∈ calls, stem ∈ more

theorem mem_foldl_withStems (p : Pipeline) (calls : List (List String)) :
    stem ∈ (calls.foldl withStems p).stems ↔ stem ∈ p.stems ∨ Given calls stem := by
  induction calls generalizing p with
  | nil => simp [Given]
  | cons more calls ih =>
    rw [List.foldl_cons, ih, mem_withStems]
    simp only [Given, List.exists_mem_cons_iff]
    grind

theorem ranked_foldl_withStems (h : Ranked p.stems) (calls : List (List String)) :
    Ranked (calls.foldl withStems p).stems := by
  induction calls generalizing p with
  | nil => exact h
  | cons more calls ih => exact ih (ranked_withStems p more)

theorem adapters_foldl_withStems (p : Pipeline) (calls : List (List String)) :
    (calls.foldl withStems p).adapters = p.adapters := by
  induction calls generalizing p with
  | nil => rfl
  | cons more calls ih => exact ih (p.withStems more)

end Order

/-! ## What is left of a key -/

section Cut

variable {given : String → Prop} {stem key rest rest' : String} {stems : List String}

/-- A key begins with a stem: the bytes of the stem come first. -/
def Begins (stem key : String) : Prop :=
  ∃ rest : ByteArray, key.toByteArray = stem.toByteArray ++ rest

/-- Where the bytes of a stem come first, so do its characters. -/
theorem begins_iff_isPrefixOf : Begins stem key ↔ stem.toList.isPrefixOf key.toList = true := by
  rw [List.isPrefixOf_iff_prefix]
  constructor
  · rintro ⟨bytes, hbytes⟩
    refine List.isPrefix_of_utf8Encode_append_eq_utf8Encode bytes ?_
    rw [String.utf8Encode_toList, String.utf8Encode_toList, hbytes]
  · rintro ⟨cs, hcs⟩
    refine ⟨(String.ofList cs).toByteArray, ?_⟩
    rw [← String.toByteArray_append, String.toByteArray_inj, ← String.toList_inj,
      String.toList_append, String.toList_ofList, hcs]

theorem begins_append (stem rest : String) : Begins stem (stem ++ rest) :=
  ⟨rest.toByteArray, String.toByteArray_append⟩

/-- What comes behind a stem that fits is a text. -/
theorem begins_iff_append : Begins stem key ↔ ∃ rest, key = stem ++ rest := by
  constructor
  · intro h
    obtain ⟨cs, hcs⟩ := List.isPrefixOf_iff_prefix.1 (begins_iff_isPrefixOf.1 h)
    refine ⟨String.ofList cs, ?_⟩
    rw [← String.toList_inj, String.toList_append, String.toList_ofList, hcs]
  · rintro ⟨rest, rfl⟩
    exact begins_append stem rest

/-- The end of a stem that fits is between two characters of the key. -/
theorem isValid_of_begins (h : Begins stem key) : stem.rawEndPos.IsValid key := by
  obtain ⟨rest, hkey⟩ := begins_iff_append.1 h
  exact String.Pos.Raw.isValid_iff_exists_append.2 ⟨stem, rest, hkey, rfl⟩

/-- Beginnings of a key that are equally long are the same. -/
theorem eq_of_begins {other : String} (h : Begins stem key) (hother : Begins other key)
    (hsize : stem.utf8ByteSize = other.utf8ByteSize) : stem = other := by
  obtain ⟨bytes, hbytes⟩ := h
  obtain ⟨bytes', hbytes'⟩ := hother
  rw [← String.toByteArray_inj]
  refine ByteArray.append_inj_left (hbytes.symm.trans hbytes') ?_
  rw [String.size_toByteArray, String.size_toByteArray, hsize]

/-- What is left of a key: all of it where no given stem begins it, and otherwise what comes behind
the longest one that does. -/
inductive Trims (given : String → Prop) (key : String) : String → Prop where
  | whole (unfit : ∀ stem, given stem → ¬ Begins stem key) : Trims given key key
  | behind {stem rest : String} (stem_given : given stem) (parts : key = stem ++ rest)
      (longest : ∀ other, given other → Begins other key →
        other.utf8ByteSize ≤ stem.utf8ByteSize) : Trims given key rest

/-- Only one thing can be left of a key. -/
theorem Trims.unique (h : Trims given key rest) (h' : Trims given key rest') : rest = rest' := by
  cases h with
  | whole unfit =>
    cases h' with
    | whole _ => rfl
    | @behind stem _ hstem parts _ =>
      exact absurd (parts ▸ begins_append stem rest') (unfit stem hstem)
  | @behind stem _ hstem parts longest =>
    have hbegins : Begins stem key := parts ▸ begins_append stem rest
    cases h' with
    | whole unfit => exact absurd hbegins (unfit stem hstem)
    | @behind stem' _ hstem' parts' longest' =>
      have hbegins' : Begins stem' key := parts' ▸ begins_append stem' rest'
      have hsize := Nat.le_antisymm (longest' stem hstem hbegins) (longest stem' hstem' hbegins')
      obtain rfl := eq_of_begins hbegins hbegins' hsize
      exact (String.append_right_inj stem).1 (parts.symm.trans parts')

/-- The first of ranked stems that fits is the longest. -/
theorem trims_cut (hranked : Ranked stems) (key : String) :
    Trims (· ∈ stems) key (cut stems key) := by
  unfold cut
  cases hfind : stems.find? fun stem => stem.toList.isPrefixOf key.toList with
  | none =>
    refine .whole fun stem hstem hbegins => ?_
    exact List.find?_eq_none.1 hfind stem hstem (begins_iff_isPrefixOf.1 hbegins)
  | some stem =>
    obtain ⟨hfits, before, after, hstems, hbefore⟩ := List.find?_eq_some_iff_append.1 hfind
    obtain ⟨cs, hcs⟩ := List.isPrefixOf_iff_prefix.1 hfits
    dsimp only
    rw [← hcs, List.drop_left]
    refine .behind (List.mem_of_find?_eq_some hfind) ?_ fun other hother hbegins => ?_
    · rw [← String.toList_inj, String.toList_append, String.toList_ofList, hcs]
    · rw [hstems] at hother hranked
      rcases List.mem_append.1 hother with hmem | hmem
      · -- The stems before the first one that fits do not fit.
        have hunfit := hbefore other hmem
        rw [begins_iff_isPrefixOf.1 hbegins] at hunfit
        cases hunfit
      · rcases List.mem_cons.1 hmem with rfl | hmem
        · exact Nat.le_refl _
        · have hsizes := (List.pairwise_append.1 hranked.sizes).2.1
          exact (List.pairwise_cons.1 hsizes).1 other hmem

theorem cut_eq_iff (hranked : Ranked stems) :
    cut stems key = rest ↔ Trims (· ∈ stems) key rest :=
  ⟨fun h => h ▸ trims_cut hranked key, fun h => (trims_cut hranked key).unique h⟩

end Cut

/-! ## What becomes of a setting -/

section Process

variable {p : Pipeline} {s : Setting}

/-- What cutting makes of pairs: as many, in the same order, with the same values; an error stays
what it is. -/
inductive Resolves (given : String → Prop) :
    Except AdapterError (List Pair) → Except AdapterError (List Pair) → Prop where
  | error (e : AdapterError) : Resolves given (.error e) (.error e)
  | ok {raw cut : List Pair}
      (pairs : List.Forall₂ (fun x y => Trims given x.1 y.1 ∧ y.2 = x.2) raw cut) :
      Resolves given (.ok raw) (.ok cut)

theorem resolves_process (hranked : Ranked p.stems) (s : Setting) :
    Resolves (· ∈ p.stems) (p.claimed s) (p.process s) := by
  unfold process
  cases p.claimed s with
  | error e => exact .error e
  | ok raw =>
    refine .ok (List.forall₂_map_right_iff.2 ?_)
    refine List.forall₂_same.2 fun x _ => ⟨trims_cut hranked x.1, rfl⟩

/-- The first adapter that claims a setting gets it. -/
theorem claimed_of_first {before after : List Adapter} {a : Adapter}
    (hp : p.adapters = before ++ a :: after) (hbefore : ∀ b ∈ before, b.claims s = false)
    (ha : a.claims s = true) : p.claimed s = a.run s := by
  have hfind : p.adapters.find? (·.claims s) = some a := by
    refine List.find?_eq_some_iff_append.2 ⟨ha, before, after, hp, fun b hb => ?_⟩
    rw [hbefore b hb, Bool.not_false]
  rw [claimed, hfind]

/-- A setting that nobody claims passes through. -/
theorem claimed_of_none (h : ∀ a ∈ p.adapters, a.claims s = false) :
    p.claimed s = .ok (passThrough s) := by
  have hfind : p.adapters.find? (·.claims s) = none := by
    refine List.find?_eq_none.2 fun a ha => ?_
    rw [h a ha]
    exact Bool.false_ne_true
  rw [claimed, hfind]

end Process

/-- **Stems, however they were given.**  A pipeline keeps the stems that it was given, apart from
the empty one, each once and the longest first; which ones were given decides the list, and how
they were given does not.
A stem that fits ends between two characters of the key.  What is left of a key is what comes
behind the longest stem that begins it, or all of it where none does.  A setting becomes the pairs
that the first adapter that claims it gives, or its own pair where none does, as many and in the
same order, with nothing changed but that the keys are cut. -/
theorem cuts_longest (adapters : List Adapter) (calls : List (List String)) :
    let p := calls.foldl withStems ⟨adapters, []⟩
    (p.stems.Nodup ∧ (∀ stem, stem ∈ p.stems ↔ Given calls stem) ∧
      p.stems.Pairwise fun a b => b.utf8ByteSize ≤ a.utf8ByteSize) ∧
    (∀ adapters' calls', (∀ stem, Given calls' stem ↔ Given calls stem) →
      (calls'.foldl withStems ⟨adapters', []⟩).stems = p.stems) ∧
    (∀ key, (∀ stem, Given calls stem → Begins stem key → stem.rawEndPos.IsValid key) ∧
      ∀ rest, cut p.stems key = rest ↔ Trims (Given calls) key rest) ∧
    ∀ s : Setting,
      (∀ before a after, adapters = before ++ a :: after → (∀ b ∈ before, b.claims s = false) →
        a.claims s = true → Resolves (Given calls) (a.run s) (p.process s)) ∧
      ((∀ a ∈ adapters, a.claims s = false) →
        Resolves (Given calls) (.ok (passThrough s)) (p.process s)) := by
  intro p
  have hmem (adapters : List Adapter) (calls : List (List String)) (stem : String) :
      stem ∈ (calls.foldl withStems ⟨adapters, []⟩).stems ↔ Given calls stem := by
    rw [mem_foldl_withStems]
    exact or_iff_right List.not_mem_nil
  have hranked (adapters : List Adapter) (calls : List (List String)) :
      Ranked (calls.foldl withStems ⟨adapters, []⟩).stems := ranked_foldl_withStems ranked_nil calls
  have hgiven : (· ∈ p.stems) = Given calls := funext fun stem => propext (hmem adapters calls stem)
  have hprocess := fun s => resolves_process (hranked adapters calls) s
  have hadapters : p.adapters = adapters := adapters_foldl_withStems _ calls
  refine ⟨⟨(hranked _ _).nodup, hmem _ _, (hranked _ _).sizes⟩, fun adapters' calls' hsame => ?_,
    fun key => ⟨fun stem _ => isValid_of_begins, fun rest => ?_⟩, fun s => ⟨?_, fun hnone => ?_⟩⟩
  · refine eq_of_ranked (hranked _ _) (hranked _ _) fun stem => ?_
    rw [hmem, hmem, hsame]
  · rw [cut_eq_iff (hranked adapters calls), hgiven]
  · intro before a after hsplit hbefore ha
    rw [← claimed_of_first (hadapters.trans hsplit) hbefore ha, ← hgiven]
    exact hprocess s
  · rw [← claimed_of_none (hadapters.symm ▸ hnone), ← hgiven]
    exact hprocess s

/-- Two stems, one of which begins the other one, in one call, with a repetition and an empty one
in another, or the other way round: the longer one is cut off, and only once.  A setting with a
content type is claimed, and one without passes through. -/
theorem cuts_longest_nested :
    let calls := [["App:", "", "App:"], ["App:Web:"]]
    let double : Adapter := ⟨"double", fun s => s.contentType.isSome, Adapter.double⟩
    let p := calls.foldl withStems ⟨[double], []⟩
    ([["App:Web:", "App:"]].foldl withStems empty).stems = p.stems ∧
      cut p.stems "App:Web:App:Port" = "App:Port" ∧ cut p.stems "app:Port" = "app:Port" ∧
      Resolves (Given calls) (.ok [("App:Port", "80"), ("App:Port#2", "80")])
        (p.process ⟨"App:Port", none, some "80", some "text/plain", ⟨"1"⟩⟩) ∧
      Resolves (Given calls) (.ok [("App:Port", "80")])
        (p.process ⟨"App:Port", none, some "80", none, ⟨"1"⟩⟩) := by
  intro calls double p
  obtain ⟨-, hgroups, hcut, hprocess⟩ := cuts_longest [double] calls
  have hgiven (stem : String) : Given calls stem ↔ stem = "App:" ∨ stem = "App:Web:" := by
    simp only [calls, Given, List.mem_cons, List.not_mem_nil]
    grind
  have hgiven' (stem : String) : Given [["App:Web:", "App:"]] stem ↔
      stem = "App:" ∨ stem = "App:Web:" := by
    simp only [Given, List.mem_cons, List.not_mem_nil]
    grind
  refine ⟨?_, ?_, ?_, ?_, ?_⟩
  · exact hgroups [] [["App:Web:", "App:"]] fun stem => (hgiven' stem).trans (hgiven stem).symm
  · have hweb : Given calls "App:Web:" := (hgiven _).2 (.inr rfl)
    refine (hcut _).2 _ |>.2 (.behind hweb rfl fun other hother _ => ?_)
    rcases (hgiven other).1 hother with rfl | rfl
    · decide
    · decide
  · refine (hcut _).2 _ |>.2 (.whole fun stem hstem hbegins => ?_)
    rw [begins_iff_isPrefixOf] at hbegins
    rcases (hgiven stem).1 hstem with rfl | rfl
    · exact absurd hbegins (by decide)
    · exact absurd hbegins (by decide)
  · have hclaimed := (hprocess ⟨"App:Port", none, some "80", some "text/plain", ⟨"1"⟩⟩).1
    exact hclaimed [] double [] rfl nofun rfl
  · refine (hprocess ⟨"App:Port", none, some "80", none, ⟨"1"⟩⟩).2 fun a ha => ?_
    rw [List.mem_singleton.1 ha]
    rfl

end Pipeline
end ReplicatedConfig
