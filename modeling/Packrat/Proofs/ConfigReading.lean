import Packrat.Proofs.ConfigPackage

/-!
# Settings in an object

Settings are what two members of an object say. All other members may be anything that is JSON,
in any number and at any place; they are read over and leave no trace. This holds of whatever
package reads the record, as long as it keeps the laws of one.

* `Config.Describes`: the settings that the members of an object give.
* `Config.load_of_describes`: **the settings in an object** with such members, and in every other
  object with the same two.
-/

namespace Packrat.Config

open Json Record

variable {members more : List Member} {config : Config}

/-- The settings that the members of an object give. -/
structure Describes (members : List Member) (config : Config) : Prop where
  memoize : Gives members "memoize" IsFlag true config.memoize
  defaultMode : Gives members "default_mode" (IsNamed Mode.name) .parser config.defaultMode

/-- The members whose keys are those of settings. -/
def known (members : List Member) : List Member :=
  members.filter fun m => m.key = "memoize" ∨ m.key = "default_mode"

theorem filter_known {key : String} (hkey : key = "memoize" ∨ key = "default_mode") :
    (known members).filter (·.key = key) = members.filter (·.key = key) := by
  rw [known, List.filter_filter]
  refine List.filter_congr fun m _ => ?_
  by_cases hm : m.key = key
  · simp [hm, hkey]
  · simp [hm]

/-- Only the members with the keys of settings count, in any order. -/
theorem Describes.of_perm (h : Describes members config) (hp : (known more).Perm (known members)) :
    Describes more config where
  memoize := h.memoize.of_perm (by
    have hfilter := hp.filter fun m => m.key = "memoize"
    rwa [filter_known (.inl rfl), filter_known (.inl rfl)] at hfilter)
  defaultMode := h.defaultMode.of_perm (by
    have hfilter := hp.filter fun m => m.key = "default_mode"
    rwa [filter_known (.inr rfl), filter_known (.inr rfl)] at hfilter)

/-- The values that settings are made of. -/
def values (config : Config) : declaration.Values
  | .memoize => config.memoize
  | .defaultMode => config.defaultMode

theorem Describes.values (h : Describes members config) :
    declaration.Describes members config.values
  | .memoize => h.memoize
  | .defaultMode => h.defaultMode

variable {ε : Type} {package : Package ε declaration} {steps : Steps ε declaration}

/-- An object that gives settings is loaded. -/
theorem load_eq (hread : steps.ReadsJson) (hfill : steps.FillsRecord)
    (htake : package.TakesSteps steps) {text : String} (ht : IsObject text.toList members)
    (hd : Describes members config) : load package text = .ok config := by
  rw [load, Package.fromText_of_describes hread hfill htake ht hd.values]
  rfl

/-- **Settings are what two members of an object give.** An object with such members is loaded, and
gives those settings; so does every other object in which the members of these two keys are the
same, with whatever members besides them, in whatever order and with whatever white space. -/
theorem load_of_describes (hread : steps.ReadsJson) (hfill : steps.FillsRecord)
    (htake : package.TakesSteps steps) {text : String} (ht : IsObject text.toList members)
    (hd : Describes members config) :
    load package text = .ok config ∧
      ∀ (other : String) (more : List Member), IsObject other.toList more →
        (known more).Perm (known members) → load package other = .ok config :=
  ⟨load_eq hread hfill htake ht hd,
    fun _ _ ho hp => load_eq hread hfill htake ho (hd.of_perm hp)⟩

/-- The package that programs are run with, on an escape in the key of a setting, and between the
settings a member that is none, with a pair of surrogates for its key. -/
theorem escaped_load_of_describes :
    load Config.package "\x7b\"\\u006demoize\" :false,\"\\ud83d\\ude00\":[\x7b\x7d],\"default_mode\":\"lexer\"\x7d" =
        .ok { memoize := false, defaultMode := .lexer } ∧
      load Config.package "\x7b\"default_mode\":\"lexer\",\"\\u006demoize\" :false\x7d" =
        .ok { memoize := false, defaultMode := .lexer } := by
  let memoize : Member := ⟨"memoize", "false".toList⟩
  let face : Member := ⟨"😀", "[\x7b\x7d]".toList⟩
  let mode : Member := ⟨"default_mode", "\"lexer\"".toList⟩
  have hlexer : Spells "lexer".toList "lexer".toList := spells_self (by decide)
  have hmode : IsMember "\"default_mode\":\"lexer\"".toList mode :=
    @IsMember.mk [] "default_mode".toList [] [] _ [] _ (by decide)
      (spells_self (w := "default_mode".toList) (by decide)) (by decide) (by decide)
      (.text hlexer.isText) (by decide)
  have hkey : Spells "\\u006demoize".toList "memoize".toList :=
    @Spells.hex ['0', '0', '6', 'd'] _ _ 0x6d rfl (by decide) (spells_self (by decide))
  have hmemoize : IsMember "\"\\u006demoize\" :false".toList memoize :=
    @IsMember.mk [] "\\u006demoize".toList [' '] [] _ [] _ (by decide) hkey (by decide) (by decide)
      .no (by decide)
  have hpair : Spells "\\ud83d\\ude00".toList "😀".toList :=
    @Spells.pair ['d', '8', '3', 'd'] ['d', 'e', '0', '0'] _ _ 0xd83d 0xde00 rfl (by decide) rfl
      (by decide) .nil
  have hobject : Derives .element "\x7b\x7d".toList :=
    @Derives.element [] _ [] (by decide) (@Derives.emptyObject [] (by decide)) (by decide)
  have hface : IsMember "\"\\ud83d\\ude00\":[\x7b\x7d]".toList face :=
    @IsMember.mk [] "\\ud83d\\ude00".toList [] [] _ [] _ (by decide) hpair (by decide) (by decide)
      (.list (.lastElement hobject)) (by decide)
  have hlong := @IsObject.full [] _ [] _ (by decide) (.more hmemoize (.more hface (.last hmode)))
    (by decide)
  have hother := @IsObject.full [] _ [] _ (by decide) (.more hmode (.last hmemoize)) (by decide)
  have hd : Describes [memoize, face, mode] { memoize := false, defaultMode := .lexer } :=
    ⟨rfl, "lexer".toList, rfl, hlexer⟩
  exact And.imp_right (fun hsame => hsame _ _ hother (.swap _ _ _))
    (load_of_describes steps_readsJson steps_fillsRecord package_takesSteps hlong hd)

end Packrat.Config
