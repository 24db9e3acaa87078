import InefficiencyEngine.Migration.World
import Mathlib.Logic.Encodable.Basic

namespace InefficiencyEngine.Migration

/-!
# A runtime and sources to run migrations with

`Runtime.sample` satisfies what the source relies on of its libraries: the JSON of a row is
a unary code, and the digest of a text is the text itself, marked.
-/

variable {K V : Type}

/-- A runtime whose digests are the texts. -/
def Runtime.sample [Encodable K] [Encodable V] : Runtime K V where
  lower := id
  json row := unary (Encodable.encode row)
  json_injective := unary_injective.comp Encodable.encode_injective
  json_line row := by simp [unary]
  sha256 text := "#" ++ text
  sha256_injective := mark_injective
  sha256_ne_empty := mark_ne_empty

/-- The retries of a run that has just begun. -/
def TransportReport.fresh : TransportReport := ⟨0, 0, none, none, none⟩

variable [LinearOrder K]

/-- A source that never changes and never fails. -/
def Source.constant (table : KeyedTable K V) : Source K V where
  snapshot _ := table
  grows _ _ h := h
  failure _ := none

/-- A migration that has not begun, over a target that holds some rows. -/
def World.start (target : KeyedTable K V) : World K V := ⟨target, .cleared .fresh, []⟩

end InefficiencyEngine.Migration
