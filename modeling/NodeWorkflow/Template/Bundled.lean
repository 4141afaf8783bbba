import NodeWorkflow.Json.Basic

/-!
# The bundled template

The data of the template that is always there: text to image with one checkpoint and two prompts.
-/
namespace NodeWorkflow.Template.Bundled

def node (id : Int) (type : String) (title : List (String × Json)) (slots : List (String × Int))
    (widgets : List Json) : Json :=
  .ofFields <| [("id", .int id), ("type", .str type)] ++ title ++
    [("inputs", .list (slots.map fun s => .ofFields [("name", .str s.1), ("link", .int s.2)]))] ++
    if widgets.isEmpty then [] else [("widgets_values", .list widgets)]

def titled (title : String) : List (String × Json) := [("title", .str title)]

def nodes : List Json :=
  [node 4 "CheckpointLoaderSimple" [] [] [.str "v1-5-pruned-emaonly.safetensors"],
    node 6 "CLIPTextEncode" (titled "Positive Prompt") [("clip", 3)] [.str "a photo of a cat"],
    node 7 "CLIPTextEncode" (titled "Negative Prompt") [("clip", 5)] [.str "blurry, low quality"],
    node 5 "EmptyLatentImage" [] [] [.int 512, .int 512, .int 1],
    node 3 "KSampler" [] [("model", 1), ("positive", 4), ("negative", 6), ("latent_image", 2)]
      [.int 156680208700286, .str "randomize", .int 20, .int 8, .str "euler", .str "normal",
        .int 1],
    node 8 "VAEDecode" [] [("samples", 7), ("vae", 8)] [],
    node 9 "SaveImage" [] [("images", 9)] [.str "ComfyUI"],
    node 10 "Note" [] [] [.str "Edit the prompts, then queue."]]

def link (id source output target input : Int) (type : String) : Json :=
  .list [.int id, .int source, .int output, .int target, .int input, .str type]

def links : List Json :=
  [link 1 4 0 3 0 "MODEL", link 2 5 0 3 3 "LATENT", link 3 4 1 6 0 "CLIP",
    link 4 6 0 3 1 "CONDITIONING", link 5 4 1 7 0 "CLIP", link 6 7 0 3 2 "CONDITIONING",
    link 7 3 0 8 0 "LATENT", link 8 4 2 8 1 "VAE", link 9 8 0 9 0 "IMAGE"]

def parameter (name type description nodeType primaryPath : String) (fallbackPath : Json)
    (condition : List (String × Json)) : String × Json :=
  (name, .ofFields <| [("type", .str type), ("description", .str description),
    ("node_type", .str nodeType), ("primary_path", .str primaryPath),
    ("fallback_path", fallbackPath)] ++ condition)

def whenTitled (title : String) : List (String × Json) := [("when", .ofFields (titled title))]

def parameters : List (String × Json) :=
  [parameter "prompt" "string" "Text prompt for generation" "CLIPTextEncode" "inputs.text"
      (.str "widgets_values[0]") (whenTitled "Positive Prompt"),
    parameter "negative_prompt" "string" "Negative prompt to avoid unwanted elements"
      "CLIPTextEncode" "inputs.text" (.str "widgets_values[0]") (whenTitled "Negative Prompt"),
    parameter "steps" "number" "Number of sampling steps" "KSampler" "inputs.steps"
      (.str "widgets_values[2]") [],
    parameter "seed" "number" "Random seed for generation" "KSampler" "inputs.seed"
      (.str "widgets_values[0]") [],
    parameter "cfg_scale" "number" "CFG scale for guidance" "KSampler" "inputs.cfg" .null [],
    parameter "width" "number" "Image width" "EmptyLatentImage" "inputs.width"
      (.str "widgets_values[0]") [],
    parameter "height" "number" "Image height" "EmptyLatentImage" "inputs.height"
      (.str "widgets_values[1]") [],
    parameter "filename_prefix" "string" "Prefix for saved files" "SaveImage"
      "inputs.filename_prefix" (.str "widgets_values[0]") [],
    parameter "guidance_scale" "number" "Guidance scale for Flux models" "FluxGuidance"
      "inputs.guidance" (.str "widgets_values[0]") []]

def data : Json :=
  .ofFields [("name", .str "txt2img-basic"),
    ("description", .str "Text-to-image with a single checkpoint, positive and negative prompts"),
    ("workflow", .ofFields [("nodes", .list nodes), ("links", .list links)]),
    ("parameters", .ofFields parameters)]

end NodeWorkflow.Template.Bundled
