import Hbird.Virt.DestroyCluster
import Hbird.Virt.DestructivePath
import Hbird.Virt.VirtInstall

namespace Hbird.Virt.DestroyCluster

open Hbird.Interaction Hbird.Shell Hbird.Ssh

/-- What destroy-cluster has a KVM host do. -/
inductive Order : Type
  | dominfo (name : String)
  | destroy (name : String)
  | undefine (name : String)
  | dumpxml (net : String)
  | deleteHost (net hostXml : String)
  | probe (path : String)
  | rm (path : String)
  | rmTree (path : String)
  deriving DecidableEq, Repr

namespace Order

/-- The command line that is sent. -/
def text : Order → String
  | .dominfo name => dominfoCommand name
  | .destroy name => virsh ("destroy " ++ shellQuote name)
  | .undefine name => undefineCommand name
  | .dumpxml net => virsh ("net-dumpxml " ++ shellQuote net)
  | .deleteHost net hostXml => virsh ("net-update " ++ shellQuote net ++ " delete ip-dhcp-host " ++
      shellQuote hostXml ++ " --live --config")
  | .probe path => "test -e " ++ shellQuote path
  | .rm path => rmCommand path
  | .rmTree path => "rm -rf -- " ++ shellQuote path

/-- The words of the line, names and paths written by `quote`. -/
def words (quote : String → String) : Order → List String
  | .dominfo name => ["virsh", "-c", remoteUri, "dominfo", quote name]
  | .destroy name => ["virsh", "-c", remoteUri, "destroy", quote name]
  | .undefine name => ["virsh", "-c", remoteUri, "undefine", "--nvram", quote name]
  | .dumpxml net => ["virsh", "-c", remoteUri, "net-dumpxml", quote net]
  | .deleteHost net hostXml => ["virsh", "-c", remoteUri, "net-update", quote net, "delete",
      "ip-dhcp-host", quote hostXml, "--live", "--config"]
  | .probe path => ["test", "-e", quote path]
  | .rm path => ["rm", "-f", "--", quote path]
  | .rmTree path => ["rm", "-rf", "--", quote path]

theorem words_injective {o o' : Order} (h : o.words id = o'.words id) : o = o' := by
  cases o <;> cases o' <;> simp_all [words]

theorem text_eq (o : Order) : o.text = " ".intercalate (o.words shellQuote) := by
  have hvirsh : "virsh -c " = "virsh" ++ " " ++ "-c" ++ " " := by decide +kernel
  have hdominfo : "dominfo " = "dominfo" ++ " " := by decide +kernel
  have hdestroy : "destroy " = "destroy" ++ " " := by decide +kernel
  have hundefine : "undefine --nvram " = "undefine" ++ " " ++ "--nvram" ++ " " := by decide +kernel
  have hdumpxml : "net-dumpxml " = "net-dumpxml" ++ " " := by decide +kernel
  have hupdate : "net-update " = "net-update" ++ " " := by decide +kernel
  have hdelete : " delete ip-dhcp-host " = " " ++ "delete" ++ " " ++ "ip-dhcp-host" ++ " " := by
    decide +kernel
  have hlive : " --live --config" = " " ++ "--live" ++ " " ++ "--config" := by decide +kernel
  have htest : "test -e " = "test" ++ " " ++ "-e" ++ " " := by decide +kernel
  have hrm : "rm -f -- " = "rm" ++ " " ++ "-f" ++ " " ++ "--" ++ " " := by decide +kernel
  have hrmTree : "rm -rf -- " = "rm" ++ " " ++ "-rf" ++ " " ++ "--" ++ " " := by decide +kernel
  cases o <;>
    simp only [text, words, dominfoCommand, undefineCommand, rmCommand, virsh, hvirsh, hdominfo,
      hdestroy, hundefine, hdumpxml, hupdate, hdelete, hlive, htest, hrm, hrmTree,
      String.intercalate_cons_cons, String.intercalate_singleton, String.append_assoc]

theorem denotes_fixed {s : String} (h : s.toList.all wordSafe = true) (hne : s.toList ≠ []) :
    Denotes s.toList s.toList := (spells_fixed h hne).denotes

/-- The shell reads the one as the other. -/
def Reads (t a : String) : Prop := Denotes t.toList a.toList

theorem reads_quoted (s : String) : List.Forall₂ Reads [shellQuote s] [s] :=
  .cons (denotes_shellQuote s) .nil

theorem reads_virsh {texts args : List String} (h : List.Forall₂ Reads texts args) :
    List.Forall₂ Reads ("virsh" :: "-c" :: remoteUri :: texts) ("virsh" :: "-c" :: remoteUri :: args) := by
  have hvirsh : Reads "virsh" "virsh" := denotes_fixed (by decide) (by decide)
  have hc : Reads "-c" "-c" := denotes_fixed (by decide) (by decide)
  have huri : Reads remoteUri remoteUri := denotes_fixed (by decide) (by decide)
  exact .cons hvirsh (.cons hc (.cons huri h))

theorem reads_rm {option : String} (path : String) (h : Reads option option) :
    List.Forall₂ Reads ["rm", option, "--", shellQuote path] ["rm", option, "--", path] := by
  have hrm : Reads "rm" "rm" := denotes_fixed (by decide) (by decide)
  have hdashes : Reads "--" "--" := denotes_fixed (by decide) (by decide)
  exact .cons hrm (.cons h (.cons hdashes (reads_quoted path)))

theorem reads_words (o : Order) : List.Forall₂ Reads (o.words shellQuote) (o.words id) := by
  have hfixed : ∀ s ∈ ["dominfo", "destroy", "undefine", "--nvram", "net-dumpxml", "net-update",
      "delete", "ip-dhcp-host", "--live", "--config", "test", "-e", "-f", "-rf"], Reads s s := by
    intro s hs
    refine denotes_fixed ?_ ?_ <;> revert s <;> decide
  cases o with
  | dominfo name => exact reads_virsh (.cons (hfixed _ (by decide)) (reads_quoted name))
  | destroy name => exact reads_virsh (.cons (hfixed _ (by decide)) (reads_quoted name))
  | undefine name =>
    exact reads_virsh (.cons (hfixed _ (by decide)) (.cons (hfixed _ (by decide)) (reads_quoted name)))
  | dumpxml net => exact reads_virsh (.cons (hfixed _ (by decide)) (reads_quoted net))
  | deleteHost net hostXml =>
    refine reads_virsh (.cons (hfixed _ (by decide)) (.cons (denotes_shellQuote net) ?_))
    refine .cons (hfixed _ (by decide)) (.cons (hfixed _ (by decide)) ?_)
    refine .cons (denotes_shellQuote hostXml) (.cons (hfixed _ (by decide)) ?_)
    exact .cons (hfixed _ (by decide)) .nil
  | probe path =>
    exact .cons (hfixed _ (by decide)) (.cons (hfixed _ (by decide)) (reads_quoted path))
  | rm path => exact reads_rm path (hfixed _ (by decide))
  | rmTree path => exact reads_rm path (hfixed _ (by decide))

/-- Whatever the names and the paths, the shell of the host reads the words that are meant. -/
theorem argv_text (o : Order) : argv noBraces o.text.toList = some ((o.words id).map String.toList) := by
  rw [text_eq]
  exact argv_intercalate (reads_words o) (by cases o <;> exact List.cons_ne_nil _ _)

theorem eq_of_argv {o o' : Order}
    (h : some ((o.words id).map String.toList) = some ((o'.words id).map String.toList)) : o = o' :=
  words_injective (List.map_injective_iff.mpr (fun _ _ => String.toList_injective) (Option.some.inj h))

end Order

end Hbird.Virt.DestroyCluster
