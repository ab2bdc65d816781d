import Searchlight.Proofs.Driver.Algebra
import Searchlight.Proofs.Session.Run

/-!
# Queries in every session

In every run of a session, whatever clients do to stores and to each other, ids are kept apart if
they are terms, and the queries of every open store are set algebra over the ids that documents do
not share.
-/

namespace Searchlight.Session

section
variable (analyze : Disk.Analyzer) (directories : List String) (server : SetStore.Server)
  (idStem : String) (es : List Event)

theorem sound_initial : (Host.initial analyze directories server idStem).Sound :=
  FileTree.every_ofDirectories directories

/-- In every run, ids are kept apart. -/
theorem sound_after :
    Holds (fun _ c => c.driver.Sound) Host.Sound
      ((new (.initial analyze directories server idStem)).after es) :=
  holds_after Driver.sound_invariant (sound_initial analyze directories server idStem)
    fun _ _ _ hh => hh

/-- **Queries are set algebra in every session**, but for ids that documents share, and these are not
keys of documents. -/
theorem queries_setAlgebra {n : Nat} {c : Client}
    (hc : (n, c) ∈ ((new (.initial analyze directories server idStem)).after es).held) :
    SetAlgebra c.driver.capabilities c.driver.translate
        (c.driver.matched ((new (.initial analyze directories server idStem)).after es).host)
        c.driver.shared ∧
      ∀ id ∈ c.driver.shared, c.driver.isKey id = false :=
  ⟨Driver.setAlgebra _ _, fun _ => Driver.isKey_of_mem_shared
    ((sound_after analyze directories server idStem es).1 _ hc)⟩

end

def boats : List Event :=
  [.openClient "boats" .builtin "tantivy" { BackendOptions.none with path := some "d" } .default,
    .ask "boats" (.write .fresh ⟨[("title", .text "red boat")]⟩),
    .ask "boats" (.write .fresh ⟨[("title", .text "blue boat")]⟩),
    .ask "boats" (.question .commit)]

/-- Of two committed documents, what is a boat or red but not both is told by symmetric
difference. -/
theorem queries_setAlgebra_boats :
    ∃ c x y z, (0, c) ∈ (oneDirectory.after boats).held ∧
      c.driver.translate (.term "boat") = .ok x ∧ c.driver.translate (.term "red") = .ok y ∧
      c.driver.translate ((Query.term "boat").xor (.term "red")) = .ok z ∧
      c.driver.matched (oneDirectory.after boats).host z =
        symmDiff (c.driver.matched (oneDirectory.after boats).host x)
          (c.driver.matched (oneDirectory.after boats).host y) := by
  have hheld : (oneDirectory.after boats).held.map (fun e =>
      (e.1, (e.2.driver.translate (.term "boat")).toBool,
        (e.2.driver.translate (.term "red")).toBool,
        e.2.driver.capabilities.supportsOperator .xor, e.2.driver.hasKeysOnly)) =
          [(0, true, true, true, true)] := by
    decide +kernel
  obtain ⟨⟨n, c⟩, hc, he⟩ := List.mem_map.1 (hheld ▸ List.mem_singleton_self _)
  simp only [Prod.mk.injEq] at he
  obtain ⟨rfl, hboat, hred, hop, honly⟩ := he
  obtain ⟨x, hx⟩ := Except.toBool_eq_true.1 hboat
  obtain ⟨y, hy⟩ := Except.toBool_eq_true.1 hred
  obtain ⟨halgebra, hkeys⟩ := queries_setAlgebra Text.stems ["d"] (.fresh true) "" boats hc
  obtain ⟨z, hz, hleast, hmost⟩ := halgebra.xor (.freeText _) (.freeText _) hx hy hop
  -- The ids of the two are keys, and not shared.
  rw [Driver.shared_eq_empty honly hkeys, Set.inter_empty, Set.union_empty] at hmost
  exact ⟨c, x, y, z, hc, hx, hy, hz, hmost.antisymm hleast⟩

end Searchlight.Session
