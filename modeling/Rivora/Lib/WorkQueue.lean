import Mathlib.Data.List.Basic

/-!
A queue of keys that several workers serve.

A key that is added while a worker handles it is remembered, and queued again once that worker is done.
So no key is handed to two workers at once, and none is lost.
-/

namespace Rivora

variable {κ : Type} [DecidableEq κ]

/-- The keys to be handled, and those that are being handled. -/
structure WorkQueue (κ : Type) [DecidableEq κ] where
  queue : List κ
  dirty : List κ
  processing : List κ
  /-- What is to be handled waits in the queue, unless a worker has it in hand. -/
  queued : ∀ k, k ∈ queue ↔ k ∈ dirty ∧ k ∉ processing
  distinct : queue.Nodup

namespace WorkQueue

/-- A queue nothing was added to. -/
def empty : WorkQueue κ := ⟨[], [], [], by simp, List.nodup_nil⟩

/-- Add a key. -/
def add (q : WorkQueue κ) (k : κ) : WorkQueue κ :=
  if known : k ∈ q.dirty then q
  else if busy : k ∈ q.processing then
    -- Its worker will queue it again.
    { q with
      dirty := k :: q.dirty
      queued := fun j => by
        have before := q.queued j
        by_cases same : j = k
        · subst same; simp [before, known, busy]
        · simp [before, same] }
  else
    { q with
      queue := q.queue ++ [k]
      dirty := k :: q.dirty
      queued := fun j => by
        have before := q.queued j
        by_cases same : j = k
        · subst same; simp [busy]
        · simp [before, same]
      distinct := by
        have absent : k ∉ q.queue := fun member => known ((q.queued k).mp member).1
        simpa [List.nodup_append, absent] using ⟨q.distinct, fun j member same => absent (same ▸ member)⟩ }

/-- Hand the key at the front to a worker. -/
def get (q : WorkQueue κ) : Option (κ × WorkQueue κ) :=
  match front : q.queue with
  | [] => none
  | k :: rest => some (k,
    { queue := rest
      dirty := q.dirty.filter (· ≠ k)
      processing := k :: q.processing
      queued := fun j => by
        have before := q.queued j
        have apart : k ∉ rest := (List.nodup_cons.mp (front ▸ q.distinct)).1
        rw [front] at before
        by_cases same : j = k
        · subst same; simp [apart]
        · simpa [same] using before
      distinct := (List.nodup_cons.mp (front ▸ q.distinct)).2 })

/-- A worker is done with a key; it is queued again if it was added meanwhile. -/
def done (q : WorkQueue κ) (k : κ) : WorkQueue κ :=
  if busy : k ∈ q.processing then
    { q with
      queue := if k ∈ q.dirty then q.queue ++ [k] else q.queue
      processing := q.processing.filter (· ≠ k)
      queued := fun j => by
        have before := q.queued j
        by_cases same : j = k
        · subst same
          by_cases again : j ∈ q.dirty <;> simp [again, before]
        · by_cases again : k ∈ q.dirty <;> simp [again, before, same]
      distinct := by
        have absent : k ∉ q.queue := fun member => ((q.queued k).mp member).2 busy
        split
        · simpa [List.nodup_append, absent] using
            ⟨q.distinct, fun j member same => absent (same ▸ member)⟩
        · exact q.distinct }
  else q

end WorkQueue

end Rivora
