import Mathlib.Data.List.TakeWhile
import PlatformRules.Console.Arguments

namespace PlatformRules.Console

variable {l : Level} {g : Given} {rest : List Word}

theorem readWords_loose {word : Word} (h : word.head? ≠ some dash) :
    readWords l g (word :: rest) =
      if l.command.isNone then .ok (g, word :: rest)
      else takePath l g word >>= fun g => readWords l g rest := by
  have hloose : isLooseValue word = true := by simp [isLooseValue, h]
  have hword : word ≠ [dash, dash] := by
    rintro rfl
    exact h rfl
  have hdashes : [dash, dash].isPrefixOf word = false := by
    rw [Bool.eq_false_iff, Ne, List.isPrefixOf_iff_prefix]
    rintro ⟨more, rfl⟩
    exact h rfl
  rw [readWords]
  simp [hword, hdashes, hloose]

theorem readWords_flag {name : Word} {o : OptionSpec} (hne : name ≠ [])
    (hplain : equalsSign ∉ name) (hhelp : name ≠ Utf8.encode "help")
    (hversion : name ≠ Utf8.encode "version")
    (ho : l.options.find? (Utf8.encode ·.name == name) = some o) (hvalue : o.value = none) :
    readWords l g ((dash :: dash :: name) :: rest) =
      takeValue g o [] >>= fun g => readWords l g rest := by
  have hword : dash :: dash :: name ≠ [dash, dash] := by simpa using hne
  have hall : ∀ b ∈ name, (b != equalsSign) = true := by
    intro b hb
    rw [bne_iff_ne]
    rintro rfl
    exact hplain hb
  have htake : name.takeWhile (· != equalsSign) = name := List.takeWhile_eq_self_iff.2 hall
  have hdrop : name.dropWhile (· != equalsSign) = [] := List.dropWhile_eq_nil_iff.2 hall
  have hfind : findOption l (dash :: dash :: name) = .ok (o, none) := by
    simp [findOption, htake, hdrop, hhelp, hversion, ho]
  rw [readWords]
  simp [hword, hfind, bind, Except.bind, hvalue]

theorem read_evaluate {path : Path} (hne : path ≠ []) (h : path.head? ≠ some dash) :
    read (["eval", "--no-detect"].map Utf8.encode ++ [path]) =
      .ok { command := .evaluate path { detect := false } false } := by
  obtain ⟨spec, hspec⟩ : ∃ spec, commands.find? (Utf8.encode ·.name == Utf8.encode "eval") =
    some spec := ⟨_, rfl⟩
  have houter : readWords .top {} (["eval", "--no-detect"].map Utf8.encode ++ [path]) =
      .ok ({}, ["eval", "--no-detect"].map Utf8.encode ++ [path]) :=
    readWords_loose (by decide)
  have hinner : readWords (.ofCommand spec) {} [Utf8.encode "--no-detect", path] =
      .ok ({ values := [("no-detect", [])], path := some path }, []) := by
    obtain rfl := Option.some.inj hspec
    rw [show Utf8.encode "--no-detect" = dash :: dash :: Utf8.encode "no-detect" from rfl,
      readWords_flag (by decide) (by decide) (by decide) (by decide) rfl rfl]
    change readWords _ _ [path] = _
    rw [readWords_loose h]
    simp [takePath, hne]
    rfl
  obtain rfl := Option.some.inj hspec
  rw [read, houter]
  change (readWords _ _ [Utf8.encode "--no-detect", path] >>= _) = _
  rw [hinner]
  rfl

end PlatformRules.Console
