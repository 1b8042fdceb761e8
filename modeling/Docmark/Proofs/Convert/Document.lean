import Docmark.Convert.Document
import Docmark.Proofs.Convert.Walk

/-!
Conversions of whole documents: the walk that each stands for, and the session at its end.
-/

namespace Docmark

open Conversion

/-- What a conversion that succeeds did. -/
theorem convertDocument_ok {source : Source} {options : ConversionOptions}
    {overrides : OptionValues} {resolver : Link.Resolver} {registry : Registry Converter}
    {c : Converted} (h : convertDocument source options overrides resolver registry = .ok c) :
    ∃ o n f s, options.update overrides = .ok o ∧ source.load o = .ok n ∧
      walk registry ⟨o, resolver⟩ 0 n {} = .ok (f, s) ∧ c = finishDocument o f.markdown s := by
  have loaded (h : (do
      let o ← orFail .override (options.update overrides)
      let n ← source.load o
      convertTree registry ⟨o, resolver⟩ n) = Except.ok c) :
      ∃ o n f s, options.update overrides = .ok o ∧ source.load o = .ok n ∧
        walk registry ⟨o, resolver⟩ 0 n {} = .ok (f, s) ∧ c = finishDocument o f.markdown s := by
    obtain ⟨o, ho, h⟩ := bind_eq_ok.mp h
    obtain ⟨n, hn, h⟩ := bind_eq_ok.mp h
    obtain ⟨⟨f, s⟩, hw, h⟩ := bind_eq_ok.mp h
    exact ⟨o, n, f, s, orFail_ok.mp ho, hn, hw, (Except.ok.inj h).symm⟩
  unfold convertDocument at h
  split at h
  · cases h
  · exact loaded h

/-- With the options set, a document is loaded and converted. -/
theorem convertDocument_eq {source : Source} {options o : ConversionOptions}
    {overrides : OptionValues} {resolver : Link.Resolver} {registry : Registry Converter}
    (given : source ≠ .json .null) (updated : options.update overrides = .ok o) :
    convertDocument source options overrides resolver registry =
      (source.load o >>= convertTree registry ⟨o, resolver⟩) := by
  unfold convertDocument
  split
  · exact absurd rfl given
  · rw [updated]
    rfl

/-- The conversion of a document that is loaded and walked through. -/
theorem convertDocument_run {source : Source} {options : ConversionOptions} {n : Node}
    {f : Fragment} {s : Session} (loaded : source.load options = .ok n)
    (walked : walk Registry.standard ⟨options, Link.resolve⟩ 0 n {} = .ok (f, s)) :
    convertDocument source options = .ok (finishDocument options f.markdown s) := by
  have given : source ≠ .json .null := by
    rintro rfl
    cases loaded
  have updated : options.update [] = .ok options := rfl
  rw [convertDocument_eq given updated]
  exact bind_eq_ok.mpr ⟨n, loaded, bind_eq_ok.mpr ⟨(f, s), walked, rfl⟩⟩

theorem reached_of_walk {ctx : Context} {n : Node} {level : Int} {f : Fragment} {s : Session}
    (h : walk Registry.standard ctx level n {} = .ok (f, s)) : Reached ctx s :=
  .walked .start h

end Docmark
