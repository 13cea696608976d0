import Hbird.Shell.Quote
import Hbird.Virt.Connection

namespace Hbird.Virt

open Hbird.Shell

def shellSafe (c : Char) : Bool := c.isAlphanum || c = '-' || c = '_' || c = '.'

def shSafe (c : Char) : Bool := c.isAlphanum || c = '-' || c = '_' || c = '.' || c = '/' || c = ':'

theorem toList_wrapQuotes (s : String) : (wrapQuotes s).toList = inQuotes s.toList := by
  have hchar : (String.toList ∘ fun c => if c = '\'' then "'\\''" else String.singleton c) =
      fun c => if c = '\'' then ['\'', '\\', '\'', '\''] else [c] := by
    funext c
    by_cases hc : c = '\''
    · subst hc
      rfl
    · rw [Function.comp, if_neg hc, if_neg hc, String.toList_singleton]
  rw [wrapQuotes, inQuotes, String.toList_append, String.toList_append, String.toList_join,
    List.flatMap_map]
  exact congrArg (fun f => '\'' :: s.toList.flatMap f ++ ['\'']) hchar

theorem toList_shellQuote (s : String) : (shellQuote s).toList = quoteWith shellSafe s.toList := by
  rw [shellQuote, quoteWith]
  by_cases hs : s = ""
  · subst hs
    rfl
  · rw [if_neg hs, if_neg (fun h => hs (String.toList_eq_nil_iff.mp h))]
    change (if s.toList.all shellSafe = true then s else wrapQuotes s).toList = _
    split_ifs
    · rfl
    · exact toList_wrapQuotes s

theorem toList_shQuote (s : String) : (shQuote s).toList = quoteWith shSafe s.toList := by
  rw [shQuote, quoteWith]
  by_cases hs : s = ""
  · subst hs
    rfl
  · rw [if_neg hs, if_neg (fun h => hs (String.toList_eq_nil_iff.mp h))]
    change (if s.toList.all shSafe = true then s else wrapQuotes s).toList = _
    split_ifs
    · rfl
    · exact toList_wrapQuotes s

theorem shSafe_class : SafeClass shSafe := safeClass_of (by decide)

theorem shellSafe_class : SafeClass shellSafe := safeClass_of (by decide)

/-- The shell reads a name that went through `shell_quote` as that name. -/
theorem denotes_shellQuote (s : String) : Denotes (shellQuote s).toList s.toList := by
  rw [toList_shellQuote]
  exact denotes_quoteWith shellSafe_class s.toList

theorem denotes_shQuote (s : String) : Denotes (shQuote s).toList s.toList := by
  rw [toList_shQuote]
  exact denotes_quoteWith shSafe_class s.toList

end Hbird.Virt
