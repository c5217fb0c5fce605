import Rankd.Node.Process
import Rankd.Node.ThreadSpec

/-!
# Translations keep the timestamp

A tie gives each winner a UUID of its own, with the timestamp of the original. The accumulator that
the timestamp is read into starts with whatever the memory holds. Six bytes push that up, and the
new UUID takes the low 48 bits.

* `isSameTimestamp_translation`: whatever the accumulator starts with
* `run_createTranslations`: what a sequence of calls returns and leaves in the table
* `translations_located`: the originals are found again
-/

namespace Rankd

open Infra

/-! ## Looking up -/

/-- `is_translation_table_empty_for`. -/
def isTranslationTableEmptyFor (uuid : UUIDv4) : ThreadM Bool := do
  let t ← Prog.get
  return !t.translationTable.contains uuid

/-- `locate_original_of`. -/
def locateOriginalOf (translated : UUIDv4) : ThreadM UUIDv4 := do
  let isEmpty ← isTranslationTableEmptyFor translated
  if isEmpty then return 0
  else
    let t ← Prog.get
    Prog.require (t.translationTable.find? translated) .outOfRange

variable {env : Env} {t : Thread}

theorem run_locateOriginalOf {translated original : UUIDv4}
    (h : t.translationTable.find? translated = some original) :
    (locateOriginalOf translated).run t = (.ok original, t) := by
  have hcontains : t.translationTable.contains translated = true :=
    OrdMap.contains_iff.mpr ⟨original, h⟩
  have hempty : (isTranslationTableEmptyFor translated).run t = (.ok false, t) := by
    rw [isTranslationTableEmptyFor, Prog.bind_ok (Prog.run_get t), hcontains]
    rfl
  rw [locateOriginalOf, Prog.bind_ok hempty, if_neg Bool.false_ne_true,
    Prog.bind_ok (Prog.run_get t), h]
  rfl

/-! ## Sequences of calls -/

/-- A call, by the index of its accumulator and of its entropy. -/
abbrev Call := Nat × UUIDv4

def createTranslations (env : Env) : List Call → ThreadM (List UUIDv4)
  | [] => return []
  | (index, original) :: rest => do
    let translated ← createTranslation env index original
    let others ← createTranslations env rest
    return translated :: others

def Call.translated (env : Env) (call : Call) : UUIDv4 := translation env call.1 call.2

/-- What a call adds to the table. -/
def Call.entry (env : Env) (call : Call) : UUIDv4 × UUIDv4 := (call.translated env, call.2)

theorem isSameTimestamp_translation (env : Env) (call : Call) :
    isSameTimestamp env.ulid (call.translated env) call.2 = true :=
  isSameTimestamp_iff.mpr (timestamp_translation env call.1 call.2)

theorem run_createTranslations (env : Env) (t : Thread) (calls : List Call) :
    (createTranslations env calls).run t =
      (.ok (calls.map (Call.translated env)),
        { t with
          translationTable := t.translationTable.insertAll (calls.map (Call.entry env)) }) := by
  induction calls generalizing t with
  | nil => rfl
  | cons call rest ih =>
    obtain ⟨index, original⟩ := call
    have hcreate : (createTranslation env index original).run t =
        (.ok (translation env index original), { t with
          translationTable :=
            t.translationTable.insertNew (translation env index original) original }) := rfl
    rw [createTranslations, Prog.bind_ok hcreate, Prog.bind_ok (ih _)]
    rfl

/-- **Translations keep the timestamp**, and where the returned UUIDs are new and pairwise different
each leads back to its original. In a table that is empty at first all of them are new. -/
theorem translations_located (env : Env) (t : Thread) (calls : List Call) :
    ∃ translated t', (createTranslations env calls).run t = (.ok translated, t') ∧
      List.Forall₂ (fun v call => isSameTimestamp env.ulid v call.2 = true) translated calls ∧
      ((t.translationTable.keys ++ translated).Nodup → List.Forall₂
        (fun v call => (locateOriginalOf v).run t' = (.ok call.2, t')) translated calls) := by
  refine ⟨_, _, run_createTranslations env t calls, ?_, ?_⟩
  · rw [List.forall₂_map_left_iff]
    exact List.forall₂_same.mpr fun call _ => isSameTimestamp_translation env call
  · intro hnodup
    obtain ⟨-, htranslated, hdisjoint⟩ := List.nodup_append.mp hnodup
    rw [List.forall₂_map_left_iff]
    refine List.forall₂_same.mpr fun call hcall => run_locateOriginalOf ?_
    refine OrdMap.find?_insertAll_of_mem ?_ ?_ (List.mem_map_of_mem hcall)
    · intro e he
      obtain ⟨other, hother, rfl⟩ := List.mem_map.mp he
      by_contra hold
      have hkey : other.translated env ∈ t.translationTable.keys :=
        OrdMap.mem_keys.mpr (Option.ne_none_iff_exists'.mp hold)
      exact hdisjoint _ hkey _ (List.mem_map_of_mem hother) rfl
    · rw [List.map_map]
      exact htranslated

/-- Two winners of one auction. -/
theorem translations_located_two :
    ∃ v w t', (createTranslations .sample [(0, sampleUuid 7 0), (1, sampleUuid 7 0)]).run
        (Node.initial.thread 0) = (.ok [v, w], t') ∧
      (locateOriginalOf v).run t' = (.ok (sampleUuid 7 0), t') ∧
      (locateOriginalOf w).run t' = (.ok (sampleUuid 7 0), t') := by
  obtain ⟨translated, t', hrun, -, hlocated⟩ := translations_located .sample
    (Node.initial.thread 0) [(0, sampleUuid 7 0), (1, sampleUuid 7 0)]
  obtain rfl : _ = translated :=
    Except.ok.inj (congrArg Prod.fst ((run_createTranslations _ _ _).symm.trans hrun))
  have hboth := hlocated (by decide)
  rw [List.map_cons, List.map_cons, List.map_nil, List.forall₂_cons, List.forall₂_cons] at hboth
  exact ⟨_, _, _, hrun, hboth.1, hboth.2.1⟩

end Rankd
