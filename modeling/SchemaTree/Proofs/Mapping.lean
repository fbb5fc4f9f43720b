import Mathlib.Data.List.Nodup
import SchemaTree.Mapping

/-!
Names and values of mappings: what inserting, erasing and extending do to the names, to their
order and to the values that are found.
-/

namespace SchemaTree.Mapping

variable {α β : Type}

@[simp]
theorem contains_iff {entries : List (String × α)} {name : String} :
    contains entries name = true ↔ name ∈ keys entries := by
  rw [contains, List.contains_iff_mem]

theorem lookup_eq_none_iff {entries : List (String × α)} {name : String} :
    lookup entries name = none ↔ name ∉ keys entries := by
  induction entries with
  | nil => exact ⟨fun _ => List.not_mem_nil, fun _ => rfl⟩
  | cons entry rest inductionHypothesis =>
      obtain ⟨key, value⟩ := entry
      rw [lookup, keys, List.map_cons, List.mem_cons, not_or]
      by_cases same : key = name
      · rw [if_pos same]
        constructor
        · intro found
          contradiction
        · intro different
          exact absurd same.symm different.1
      · rw [if_neg same, inductionHypothesis]
        exact ⟨fun absent => ⟨Ne.symm same, absent⟩, And.right⟩

theorem mem_keys_iff {entries : List (String × α)} {name : String} :
    name ∈ keys entries ↔ ∃ value, lookup entries name = some value := by
  rw [← Option.ne_none_iff_exists', ne_eq, lookup_eq_none_iff, not_not]

theorem contains_eq_isSome_lookup (entries : List (String × α)) (name : String) :
    contains entries name = (lookup entries name).isSome := by
  rw [Bool.eq_iff_iff, contains_iff, mem_keys_iff, Option.isSome_iff_exists]

theorem mem_keys_of_lookup {entries : List (String × α)} {name : String} {value : α}
    (found : lookup entries name = some value) : name ∈ keys entries :=
  mem_keys_iff.mpr ⟨value, found⟩

theorem mem_of_lookup {entries : List (String × α)} {name : String} {value : α}
    (found : lookup entries name = some value) : (name, value) ∈ entries := by
  induction entries with
  | nil => contradiction
  | cons entry rest inductionHypothesis =>
      obtain ⟨key, other⟩ := entry
      rw [lookup] at found
      by_cases same : key = name
      · rw [if_pos same] at found
        rw [same, Option.some.inj found]
        exact List.mem_cons_self
      · rw [if_neg same] at found
        exact List.mem_cons_of_mem _ (inductionHypothesis found)

theorem lookup_of_mem {entries : List (String × α)} (distinct : (keys entries).Nodup)
    {entry : String × α} (member : entry ∈ entries) :
    lookup entries entry.1 = some entry.2 := by
  induction entries with
  | nil => contradiction
  | cons first rest inductionHypothesis =>
      obtain ⟨key, value⟩ := first
      rw [keys, List.map_cons, List.nodup_cons] at distinct
      rw [lookup]
      rcases List.mem_cons.mp member with rfl | inRest
      · rw [if_pos rfl]
      · have different : key ≠ entry.1 := by
          rintro rfl
          exact distinct.1 (List.mem_map.mpr ⟨entry, inRest, rfl⟩)
        rw [if_neg different, inductionHypothesis distinct.2 inRest]

theorem of_lookup_cons {rest : List (String × α)} {key name : String} {value other : α}
    (isFound : lookup ((key, value) :: rest) name = some other) :
    key = name ∧ value = other ∨ lookup rest name = some other := by
  rw [lookup] at isFound
  split at isFound
  · exact .inl ⟨‹key = name›, Option.some.inj isFound⟩
  · exact .inr isFound

theorem lookup_cons_iff {rest : List (String × α)} {key name : String} {value other : α}
    (fresh : key ∉ keys rest) :
    lookup ((key, value) :: rest) name = some other ↔
      key = name ∧ value = other ∨ lookup rest name = some other := by
  rw [lookup]
  by_cases same : key = name
  · subst same
    simp [lookup_eq_none_iff.mpr fresh]
  · simp [same]

theorem lookup_append (first second : List (String × α)) (name : String) :
    lookup (first ++ second) name = (lookup first name).or (lookup second name) := by
  induction first with
  | nil => rfl
  | cons entry rest inductionHypothesis =>
      obtain ⟨key, value⟩ := entry
      rw [List.cons_append, lookup, lookup, inductionHypothesis]
      by_cases same : key = name
      · rw [if_pos same, if_pos same, Option.some_or]
      · rw [if_neg same, if_neg same]

theorem lookup_filter (entries : List (String × α)) (keep : String → Bool) (name : String) :
    lookup (entries.filter fun entry => keep entry.1) name =
      if keep name then lookup entries name else none := by
  induction entries with
  | nil => rw [List.filter_nil, lookup, ite_self]
  | cons entry rest inductionHypothesis =>
      obtain ⟨key, value⟩ := entry
      rw [List.filter_cons, lookup]
      by_cases same : key = name
      · rw [same, if_pos rfl]
        by_cases kept : keep name = true
        · rw [if_pos kept, if_pos kept, lookup, if_pos rfl]
        · rw [if_neg kept, if_neg kept, inductionHypothesis, if_neg kept]
      · rw [if_neg same]
        by_cases kept : keep key = true
        · rw [if_pos kept, lookup, if_neg same, inductionHypothesis]
        · rw [if_neg kept, inductionHypothesis]

/-! ## Erasing -/

theorem keys_erase (entries : List (String × α)) (name : String) :
    keys (erase entries name) = (keys entries).filter (· ≠ name) := by
  induction entries with
  | nil => rfl
  | cons entry rest inductionHypothesis =>
      obtain ⟨key, value⟩ := entry
      rw [erase]
      by_cases same : key = name
      · rw [if_pos same, inductionHypothesis, keys, keys, List.map_cons,
          List.filter_cons_of_neg (by simpa using same)]
      · rw [if_neg same, keys, keys, List.map_cons, List.map_cons,
          List.filter_cons_of_pos (by simpa using same)]
        exact congrArg (key :: ·) inductionHypothesis

@[simp]
theorem mem_keys_erase {entries : List (String × α)} {name other : String} :
    other ∈ keys (erase entries name) ↔ other ∈ keys entries ∧ other ≠ name := by
  rw [keys_erase, List.mem_filter, decide_eq_true_eq]

theorem nodup_erase {entries : List (String × α)} (distinct : (keys entries).Nodup)
    (name : String) : (keys (erase entries name)).Nodup := by
  rw [keys_erase]
  exact distinct.filter _

theorem erase_of_notMem {entries : List (String × α)} {name : String}
    (fresh : name ∉ keys entries) : erase entries name = entries := by
  induction entries with
  | nil => rfl
  | cons entry rest inductionHypothesis =>
      rw [keys, List.map_cons, List.mem_cons, not_or] at fresh
      rw [erase, if_neg (Ne.symm fresh.1), inductionHypothesis fresh.2]

/-! ## Moving a name to the end -/

@[simp]
theorem keys_append (first second : List (String × α)) :
    keys (first ++ second) = keys first ++ keys second :=
  List.map_append

theorem nodup_erase_append {entries : List (String × α)} (distinct : (keys entries).Nodup)
    {old new : String} (fresh : new ∈ keys entries → new = old) (value : α) :
    (keys (erase entries old ++ [(new, value)])).Nodup := by
  rw [keys_append, List.nodup_append]
  refine ⟨nodup_erase distinct old, List.nodup_singleton new, ?_⟩
  rintro name isKey other isNew rfl
  obtain ⟨isOldKey, different⟩ := mem_keys_erase.mp isKey
  have same : name = new := List.mem_singleton.mp isNew
  exact different (same.trans (fresh (same ▸ isOldKey)))

/-! ## Inserting -/

theorem insert_of_notMem {entries : List (String × α)} {name : String}
    (fresh : name ∉ keys entries) (value : α) :
    insert entries name value = entries ++ [(name, value)] := by
  induction entries with
  | nil => rfl
  | cons entry rest inductionHypothesis =>
      obtain ⟨key, old⟩ := entry
      rw [keys, List.map_cons, List.mem_cons, not_or] at fresh
      rw [insert, if_neg (Ne.symm fresh.1), inductionHypothesis fresh.2, List.cons_append]

theorem keys_insert (entries : List (String × α)) (name : String) (value : α) :
    keys (insert entries name value) =
      if name ∈ keys entries then keys entries else keys entries ++ [name] := by
  induction entries with
  | nil => rfl
  | cons entry rest inductionHypothesis =>
      obtain ⟨key, old⟩ := entry
      rw [insert]
      by_cases same : key = name
      · rw [if_pos same, keys, keys, List.map_cons, List.map_cons, same,
          if_pos List.mem_cons_self]
      · rw [if_neg same, keys, keys, List.map_cons, List.map_cons]
        show key :: keys (insert rest name value) =
          if name ∈ key :: keys rest then key :: keys rest else key :: keys rest ++ [name]
        rw [inductionHypothesis]
        by_cases isKey : name ∈ keys rest
        · rw [if_pos isKey, if_pos (List.mem_cons_of_mem _ isKey)]
        · have fresh : name ∉ key :: keys rest := by
            rw [List.mem_cons, not_or]
            exact ⟨Ne.symm same, isKey⟩
          rw [if_neg isKey, if_neg fresh, List.cons_append]

@[simp]
theorem mem_keys_insert {entries : List (String × α)} {name other : String} {value : α} :
    other ∈ keys (insert entries name value) ↔ other ∈ keys entries ∨ other = name := by
  rw [keys_insert]
  by_cases isKey : name ∈ keys entries
  · rw [if_pos isKey, or_iff_left_of_imp]
    rintro rfl
    exact isKey
  · rw [if_neg isKey, List.mem_append, List.mem_singleton]

theorem nodup_insert {entries : List (String × α)} (distinct : (keys entries).Nodup)
    (name : String) (value : α) : (keys (insert entries name value)).Nodup := by
  rw [keys_insert]
  by_cases isKey : name ∈ keys entries
  · rw [if_pos isKey]
    exact distinct
  · rw [if_neg isKey]
    rw [← List.concat_eq_append]
    exact distinct.concat isKey

/-! ## Extending -/

theorem extend_cons (entries added : List (String × α)) (entry : String × α) :
    extend entries (entry :: added) = extend (insert entries entry.1 entry.2) added :=
  rfl

theorem extend_append (entries first second : List (String × α)) :
    extend entries (first ++ second) = extend (extend entries first) second :=
  List.foldl_append

@[simp]
theorem mem_keys_extend {entries added : List (String × α)} {name : String} :
    name ∈ keys (extend entries added) ↔ name ∈ keys entries ∨ name ∈ keys added := by
  induction added generalizing entries with
  | nil => exact (or_iff_left List.not_mem_nil).symm
  | cons entry rest inductionHypothesis =>
      rw [extend_cons, inductionHypothesis, mem_keys_insert, or_assoc]
      show _ ↔ name ∈ keys entries ∨ name ∈ entry.1 :: keys rest
      rw [List.mem_cons]

theorem nodup_extend {entries : List (String × α)} (distinct : (keys entries).Nodup)
    (added : List (String × α)) : (keys (extend entries added)).Nodup := by
  induction added generalizing entries with
  | nil => exact distinct
  | cons entry rest inductionHypothesis =>
      exact inductionHypothesis (nodup_insert distinct entry.1 entry.2)

/-- Of the values that a name is given, the last counts. -/
theorem lookup_extend (entries added : List (String × α)) (name : String) :
    lookup (extend entries added) name =
      (lookup added.reverse name).or (lookup entries name) := by
  induction added generalizing entries with
  | nil => rfl
  | cons entry rest inductionHypothesis =>
      rw [extend_cons, inductionHypothesis, lookup_insert, List.reverse_cons, lookup_append,
        Option.or_assoc]
      congr 1
      obtain ⟨key, value⟩ := entry
      rw [lookup]
      by_cases same : key = name
      · rw [if_pos same, if_pos same, Option.some_or]
      · rw [if_neg same, if_neg same, lookup, Option.none_or]

@[simp]
theorem mem_keys_reverse {entries : List (String × α)} {name : String} :
    name ∈ keys entries.reverse ↔ name ∈ keys entries := by
  rw [keys, List.map_reverse, List.mem_reverse, keys]

/-- The names of a list that are not held, each where it is mentioned first. -/
def firstMentions : List String → List String → List String
  | _, [] => []
  | held, name :: rest =>
      if name ∈ held then firstMentions held rest else name :: firstMentions (held ++ [name]) rest

theorem keys_extend (entries added : List (String × α)) :
    keys (extend entries added) = keys entries ++ firstMentions (keys entries) (keys added) := by
  induction added generalizing entries with
  | nil => exact (List.append_nil _).symm
  | cons entry rest inductionHypothesis =>
      rw [extend_cons, inductionHypothesis, keys_insert]
      show _ = keys entries ++ firstMentions (keys entries) (entry.1 :: keys rest)
      rw [firstMentions]
      by_cases isKey : entry.1 ∈ keys entries
      · rw [if_pos isKey, if_pos isKey]
      · rw [if_neg isKey, if_neg isKey, List.append_assoc, List.singleton_append]

theorem notMem_of_mem_firstMentions {held names : List String} {name : String}
    (mentioned : name ∈ firstMentions held names) : name ∉ held := by
  induction names generalizing held with
  | nil => exact absurd mentioned List.not_mem_nil
  | cons first rest inductionHypothesis =>
      rw [firstMentions] at mentioned
      by_cases isHeld : first ∈ held
      · rw [if_pos isHeld] at mentioned
        exact inductionHypothesis mentioned
      · rw [if_neg isHeld, List.mem_cons] at mentioned
        rcases mentioned with rfl | later
        · exact isHeld
        · exact fun isOld => inductionHypothesis later (List.mem_append_left _ isOld)

theorem firstMentions_sublist (held names : List String) :
    (firstMentions held names).Sublist names := by
  induction names generalizing held with
  | nil => exact .slnil
  | cons first rest inductionHypothesis =>
      rw [firstMentions]
      by_cases isHeld : first ∈ held
      · rw [if_pos isHeld]
        exact (inductionHypothesis held).cons first
      · rw [if_neg isHeld]
        exact (inductionHypothesis _).cons_cons first

theorem firstMentions_append_sublist (held names added : List String) :
    (firstMentions held (names ++ added)).Sublist (firstMentions held names ++ added) := by
  induction names generalizing held with
  | nil => exact firstMentions_sublist held added
  | cons first rest inductionHypothesis =>
      rw [List.cons_append, firstMentions, firstMentions]
      by_cases isHeld : first ∈ held
      · rw [if_pos isHeld, if_pos isHeld]
        exact inductionHypothesis held
      · rw [if_neg isHeld, if_neg isHeld, List.cons_append]
        exact (inductionHypothesis _).cons_cons first

/-- A name that leaves both lists leaves the first mentions. -/
theorem firstMentions_filter {held without : List String} {gone : String}
    (same : ∀ name, name ≠ gone → (name ∈ without ↔ name ∈ held)) (names : List String) :
    firstMentions without (names.filter (· ≠ gone)) =
      (firstMentions held names).filter (· ≠ gone) := by
  induction names generalizing held without with
  | nil => rfl
  | cons first rest inductionHypothesis =>
      have still : ∀ name, name ≠ gone → (name ∈ without ++ [first] ↔ name ∈ held ++ [first]) := by
        intro name stays
        rw [List.mem_append, List.mem_append, same name stays]
      by_cases isGone : first = gone
      · rw [List.filter_cons_of_neg (by simpa using isGone), firstMentions]
        by_cases isHeld : first ∈ held
        · rw [if_pos isHeld, inductionHypothesis same]
        · rw [if_neg isHeld, List.filter_cons_of_neg (by simpa using isGone)]
          apply inductionHypothesis
          intro name stays
          rw [same name stays, List.mem_append, List.mem_singleton, isGone, or_iff_left stays]
      · rw [List.filter_cons_of_pos (by simpa using isGone), firstMentions, firstMentions]
        by_cases isHeld : first ∈ held
        · rw [if_pos isHeld, if_pos ((same first isGone).mpr isHeld), inductionHypothesis same]
        · rw [if_neg isHeld, if_neg fun isOld => isHeld ((same first isGone).mp isOld),
            inductionHypothesis still, List.filter_cons_of_pos (by simpa using isGone)]

theorem extend_of_nodup {entries added : List (String × α)}
    (distinct : (keys (entries ++ added)).Nodup) : extend entries added = entries ++ added := by
  induction added generalizing entries with
  | nil => exact (List.append_nil entries).symm
  | cons entry rest inductionHypothesis =>
      have fresh : entry.1 ∉ keys entries := by
        rw [keys, List.map_append, List.map_cons] at distinct
        intro isKey
        exact (List.nodup_append.mp distinct).2.2 _ isKey _ List.mem_cons_self rfl
      have moved : entries ++ entry :: rest = entries ++ [entry] ++ rest := by
        rw [List.append_assoc, List.singleton_append]
      rw [moved] at distinct ⊢
      rw [← inductionHypothesis distinct]
      show extend (insert entries entry.1 entry.2) rest = _
      rw [insert_of_notMem fresh]

theorem ofList_of_nodup {entries : List (String × α)} (distinct : (keys entries).Nodup) :
    ofList entries = entries :=
  extend_of_nodup distinct

theorem mem_insert {entries : List (String × α)} {name : String} {value : α}
    {entry : String × α} (isEntry : entry ∈ insert entries name value) :
    entry ∈ entries ∨ entry = (name, value) := by
  induction entries with
  | nil => simpa [insert] using isEntry
  | cons first rest inductionHypothesis => grind [insert]

/-- An extended mapping has no entries but those of its parts. -/
theorem mem_extend {entries added : List (String × α)} {entry : String × α}
    (isEntry : entry ∈ extend entries added) : entry ∈ entries ∨ entry ∈ added := by
  induction added generalizing entries with
  | nil => exact .inl isEntry
  | cons first rest inductionHypothesis =>
      rcases inductionHypothesis isEntry with isInserted | isLater
      · rcases mem_insert isInserted with isOld | rfl
        · exact .inl isOld
        · exact .inr List.mem_cons_self
      · exact .inr (List.mem_cons_of_mem _ isLater)

theorem insert_append_of_notMem {entries : List (String × α)} {name : String}
    (fresh : name ∉ keys entries) (others : List (String × α)) (value : α) :
    insert (entries ++ others) name value = entries ++ insert others name value := by
  induction entries with
  | nil => rfl
  | cons entry rest inductionHypothesis =>
      obtain ⟨different, fresh⟩ := not_or.mp (List.mem_cons.not.mp fresh)
      rw [List.cons_append, insert, if_neg (Ne.symm different), inductionHypothesis fresh,
        List.cons_append]

/-- Entries whose names are not added to stay in front. -/
theorem extend_append_of_disjoint {entries added : List (String × α)}
    (others : List (String × α)) (fresh : ∀ name ∈ keys added, name ∉ keys entries) :
    extend (entries ++ others) added = entries ++ extend others added := by
  induction added generalizing others with
  | nil => rfl
  | cons entry rest inductionHypothesis =>
      obtain ⟨isFresh, fresh⟩ := List.forall_mem_cons.mp fresh
      rw [extend_cons, insert_append_of_notMem isFresh, inductionHypothesis _ fresh, extend_cons]

/-! ## Inserting again -/

/-- Nothing changes where the value of a name is what it was. -/
theorem insert_of_mem {entries : List (String × α)} (distinct : (keys entries).Nodup)
    {entry : String × α} (isEntry : entry ∈ entries) :
    insert entries entry.1 entry.2 = entries := by
  induction entries with
  | nil => contradiction
  | cons first rest inductionHypothesis =>
      obtain ⟨isFresh, distinct⟩ := List.nodup_cons.mp distinct
      rcases List.mem_cons.mp isEntry with rfl | isLater
      · rw [insert, if_pos rfl]
      · have different : first.1 ≠ entry.1 := by
          intro same
          exact isFresh (same ▸ List.mem_map_of_mem isLater)
        rw [insert, if_neg different, inductionHypothesis distinct isLater]

theorem extend_of_subset {entries added : List (String × α)} (distinct : (keys entries).Nodup)
    (isPart : added ⊆ entries) : extend entries added = entries := by
  induction added with
  | nil => rfl
  | cons entry rest inductionHypothesis =>
      obtain ⟨isEntry, isPart⟩ := List.cons_subset.mp isPart
      rw [extend_cons, insert_of_mem distinct isEntry, inductionHypothesis isPart]

/-- Rows that are inserted again right after they first are change nothing. -/
theorem extend_flatMap_append {ι : Type} (entries : List (String × α)) {items : List ι}
    {rows again : ι → List (String × α)}
    (distinct : (keys (entries ++ items.flatMap rows)).Nodup)
    (areAgain : ∀ item ∈ items, again item ⊆ rows item) :
    extend entries (items.flatMap fun item => rows item ++ again item) =
      entries ++ items.flatMap rows := by
  induction items generalizing entries with
  | nil => exact (List.append_nil entries).symm
  | cons item rest inductionHypothesis =>
      obtain ⟨isAgain, areAgain⟩ := List.forall_mem_cons.mp areAgain
      rw [List.flatMap_cons, ← List.append_assoc] at distinct
      have distinctHere : (keys (entries ++ rows item)).Nodup :=
        distinct.sublist ((List.sublist_append_left _ _).map Prod.fst)
      have isHeld : again item ⊆ entries ++ rows item :=
        List.Subset.trans isAgain (List.subset_append_right _ _)
      rw [List.flatMap_cons, List.flatMap_cons, extend_append, extend_append,
        extend_of_nodup distinctHere, extend_of_subset distinctHere isHeld,
        inductionHypothesis _ distinct areAgain, List.append_assoc]

/-! ## Distinct names -/

theorem mem_iff_lookup {entries : List (String × α)} (distinct : (keys entries).Nodup)
    {name : String} {value : α} : (name, value) ∈ entries ↔ lookup entries name = some value :=
  ⟨lookup_of_mem distinct, mem_of_lookup⟩

theorem lookup_reverse {entries : List (String × α)} (distinct : (keys entries).Nodup)
    (name : String) : lookup entries.reverse name = lookup entries name := by
  have distinctReverse : (keys entries.reverse).Nodup := by
    simpa [keys] using distinct
  apply Option.ext
  intro value
  simp [← mem_iff_lookup distinct, ← mem_iff_lookup distinctReverse]

/-! ## Values given by names -/

theorem lookup_mapValues (f : String → α → β) (entries : List (String × α)) (name : String) :
    lookup (mapValues f entries) name = (lookup entries name).map (f name) := by
  induction entries with
  | nil => rfl
  | cons entry rest inductionHypothesis => grind [mapValues, lookup]

theorem insert_mapValues (f : String → α → β) (entries : List (String × α)) (name : String)
    (value : α) :
    insert (mapValues f entries) name (f name value) = mapValues f (insert entries name value) := by
  induction entries with
  | nil => rfl
  | cons entry rest inductionHypothesis => grind [mapValues, insert]

theorem extend_mapValues (f : String → α → β) (entries added : List (String × α)) :
    extend (mapValues f entries) (mapValues f added) = mapValues f (extend entries added) := by
  induction added generalizing entries with
  | nil => rfl
  | cons entry rest inductionHypothesis =>
      simp only [extend_cons, ← inductionHypothesis, ← insert_mapValues]
      rfl

/-! ## Other names -/

/-- The same values under the names that a function gives. -/
def mapKeys (f : String → String) (entries : List (String × α)) : List (String × α) :=
  entries.map fun entry => (f entry.1, entry.2)

theorem keys_mapKeys (f : String → String) (entries : List (String × α)) :
    keys (mapKeys f entries) = (keys entries).map f := by
  simp [keys, mapKeys]

theorem filter_mapKeys (f : String → String) (keep : α → Bool) (entries : List (String × α)) :
    (mapKeys f entries).filter (fun entry => keep entry.2) =
      mapKeys f (entries.filter fun entry => keep entry.2) :=
  List.filter_map

theorem insert_mapKeys {f : String → String} (injective : Function.Injective f)
    (entries : List (String × α)) (name : String) (value : α) :
    insert (mapKeys f entries) (f name) value = mapKeys f (insert entries name value) := by
  induction entries with
  | nil => rfl
  | cons entry rest inductionHypothesis =>
      have same : f entry.1 = f name ↔ entry.1 = name := injective.eq_iff
      grind [mapKeys, insert]

theorem extend_mapKeys {f : String → String} (injective : Function.Injective f)
    (entries added : List (String × α)) :
    extend (mapKeys f entries) (mapKeys f added) = mapKeys f (extend entries added) := by
  induction added generalizing entries with
  | nil => rfl
  | cons entry rest inductionHypothesis =>
      rw [extend_cons, ← inductionHypothesis, ← insert_mapKeys injective]
      rfl

theorem ofList_mapKeys {f : String → String} (injective : Function.Injective f)
    (entries : List (String × α)) : ofList (mapKeys f entries) = mapKeys f (ofList entries) :=
  extend_mapKeys injective [] entries

/-- An entry stays in front of others that cannot take its name. -/
theorem ofList_cons_mapKeys {f : String → String} (injective : Function.Injective f)
    {name : String} (fresh : ∀ other, f other ≠ name) (value : α) (entries : List (String × α)) :
    ofList ((name, value) :: mapKeys f entries) = (name, value) :: mapKeys f (ofList entries) := by
  have isFresh : ∀ other ∈ keys (mapKeys f entries), other ∉ keys [(name, value)] := by
    intro other isKey isName
    rw [keys_mapKeys] at isKey
    obtain ⟨key, _, rfl⟩ := List.mem_map.mp isKey
    exact fresh key (List.mem_singleton.mp isName)
  have inFront := extend_append_of_disjoint [] isFresh
  rw [List.append_nil] at inFront
  rw [← ofList_mapKeys injective]
  exact inFront

/-! ## Adjusting -/

theorem lookup_adjust (entries : List (String × α)) (name other : String) (f : α → α) :
    lookup (adjust entries name f) other =
      if name = other then (lookup entries other).map f else lookup entries other := by
  induction entries with
  | nil => simp [adjust, lookup]
  | cons entry rest inductionHypothesis => grind [adjust, lookup]

@[simp]
theorem keys_adjust (entries : List (String × α)) (name : String) (f : α → α) :
    keys (adjust entries name f) = keys entries := by
  induction entries with
  | nil => rfl
  | cons entry rest inductionHypothesis =>
      rw [adjust]
      split
      · rfl
      · exact congrArg (entry.1 :: ·) inductionHypothesis

theorem adjust_adjust (entries : List (String × α)) (name : String) (f g : α → α) :
    adjust (adjust entries name f) name g = adjust entries name fun value => g (f value) := by
  induction entries with
  | nil => rfl
  | cons entry rest inductionHypothesis =>
      obtain ⟨key, value⟩ := entry
      by_cases same : key = name <;> simp [adjust, same, inductionHypothesis]

/-- Only what a change makes of the value of the name counts. -/
theorem adjust_congr {entries : List (String × α)} {name : String} {f g : α → α}
    (same : ∀ value, lookup entries name = some value → f value = g value) :
    adjust entries name f = adjust entries name g := by
  induction entries with
  | nil => rfl
  | cons entry rest inductionHypothesis =>
      obtain ⟨key, value⟩ := entry
      rw [adjust, adjust]
      by_cases isHere : key = name
      · rw [if_pos isHere, if_pos isHere, same value (by simp [lookup, isHere])]
      · rw [if_neg isHere, if_neg isHere, inductionHypothesis]
        intro other isFound
        exact same other (by simpa [lookup, isHere] using isFound)

theorem adjust_eq_self {entries : List (String × α)} {name : String} {f : α → α}
    (same : ∀ value, lookup entries name = some value → f value = value) :
    adjust entries name f = entries := by
  induction entries with
  | nil => rfl
  | cons entry rest inductionHypothesis => grind [adjust, lookup]

/-- Rows that tell the new value of the name from the old one nowhere are the same after a change,
also of the names that are kept. -/
theorem flatMap_filter_adjust {entries : List (String × α)} {name : String} {f : α → α}
    (keep : String → Bool) {rows : String × α → List β}
    (same : ∀ value, (name, value) ∈ entries → rows (name, f value) = rows (name, value)) :
    ((adjust entries name f).filter fun entry => keep entry.1).flatMap rows =
      (entries.filter fun entry => keep entry.1).flatMap rows := by
  induction entries with
  | nil => rfl
  | cons entry rest inductionHypothesis =>
      obtain ⟨key, value⟩ := entry
      rw [adjust]
      by_cases isHere : key = name
      · subst isHere
        rw [if_pos rfl, List.filter_cons, List.filter_cons]
        cases keep key with
        | true => simp [same value List.mem_cons_self]
        | false => rfl
      · have below := inductionHypothesis fun other isEntry =>
          same other (List.mem_cons_of_mem _ isEntry)
        rw [if_neg isHere, List.filter_cons, List.filter_cons]
        cases keep key with
        | true => simp [below]
        | false => exact below

end SchemaTree.Mapping
