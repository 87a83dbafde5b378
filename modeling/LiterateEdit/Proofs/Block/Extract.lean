import LiterateEdit.Block.Extract
import LiterateEdit.Proofs.Block.Info

/-!
# The blocks of fences

Each fence becomes a block of its own (`blocksOfFences_value`). Its language and the arguments that
it is given directly are those of its info string; without default arguments there are no others
(`Fence.toBlock_args_of_no_defaults`), because no argument of an info string stands there twice.
-/

namespace LiterateEdit

/-- **Each fence becomes a block of its own.** -/
theorem blocksOfFences_value (doc : Path) (defaults : HeaderArgs) (fences : List Fence) :
    (blocksOfFences doc defaults fences).value =
      fences.map fun f => (f.toBlock doc defaults).value := by
  induction fences with
  | nil => rfl
  | cons f fences ih => exact congrArg (_ :: ·) ih

namespace Fence

variable (doc : Path) (defaults : HeaderArgs) (f : Fence)

theorem toBlock_text : (f.toBlock doc defaults).value.text = f.content := rfl

theorem toBlock_language :
    (f.toBlock doc defaults).value.language = (Info.parse f.info).value.language := rfl

theorem toBlock_args :
    (f.toBlock doc defaults).value.args = defaults.setAll (Info.parse f.info).value.args := rfl

theorem toBlock_first : (f.toBlock doc defaults).value.first = f.first := rfl

theorem toBlock_stop : (f.toBlock doc defaults).value.stop = f.stop := rfl

theorem toBlock_args_of_no_defaults :
    (f.toBlock doc []).value.args = (Info.parse f.info).value.args :=
  HeaderArgs.setAll_of_nodup (Info.nodup_names_parse f.info)

end Fence

end LiterateEdit
