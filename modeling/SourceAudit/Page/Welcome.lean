import SourceAudit.Page.Screen

/-!
# The welcome page

What the page shows before anything was analysed: a banner, what the tool can do, and how to use it.
-/

namespace SourceAudit.Page

open Outside

def banner : List String :=
  ["",
    "    <div style=\"background: linear-gradient(135deg, #4A90A4 0%, #6B9BD1 30%, #5DADE2 60%, #3498DB 100%); ",
    "                padding: 40px; ", "                border-radius: 15px; ",
    "                margin-bottom: 25px;",
    "                box-shadow: 0 8px 16px rgba(74, 144, 164, 0.3),",
    "                            0 4px 8px rgba(74, 144, 164, 0.2);",
    "                border: 2px solid rgba(255, 255, 255, 0.2);\">",
    "        <h1 style=\"color: white; margin: 0; text-align: center; ",
    "                   font-size: 42px; ",
    "                   text-shadow: 0 2px 8px rgba(0, 0, 0, 0.3);",
    "                   font-weight: 700;\">🛡️ OSS-Guardian</h1>",
    "        <p style=\"color: #E8F0F5; text-align: center; margin: 15px 0 0 0; ",
    "                  font-size: 20px; ",
    "                  text-shadow: 0 1px 4px rgba(0, 0, 0, 0.2);",
    "                  font-weight: 500;\">开源软件安全检测系统</p>",
    "        <div style=\"text-align: center; margin-top: 15px;\">",
    "            <span style=\"background: rgba(255, 255, 255, 0.2); ",
    "                        padding: 5px 15px; ", "                        border-radius: 20px; ",
    "                        font-size: 14px; ",
    "                        color: white;\">静态分析 + 动态分析 + 威胁识别</span>", "        </div>",
    "    </div>", "    "]

def greeting : List String :=
  ["",
    "        <div style=\"background-color: #FFFFFF; padding: 30px; border-radius: 10px; border-left: 5px solid #4A90A4;\">",
    "            <h2 style=\"color: #2C3E50; margin-top: 0;\">欢迎使用 OSS-Guardian</h2>",
    "            <p style=\"color: #34495E; font-size: 16px; line-height: 1.8;\">",
    "                <strong>OSS-Guardian</strong> 是一个全面的开源软件安全分析工具，通过静态分析和动态分析相结合的方式，",
    "                帮助您发现代码中的安全漏洞和恶意行为。", "            </p>", "        </div>", "        "]

def features : List String :=
  ["", "            <div style=\"background: linear-gradient(135deg, #FFFFFF 0%, #F8FBFC 100%); ",
    "                        padding: 25px; ", "                        border-radius: 12px; ",
    "                        margin: 10px 0; ",
    "                        border-left: 5px solid #4A90A4;",
    "                        box-shadow: 0 4px 12px rgba(74, 144, 164, 0.15),",
    "                                    0 2px 4px rgba(74, 144, 164, 0.1);",
    "                        transition: all 0.3s ease;\">",
    "                <h3 style=\"color: #2C3E50; margin-top: 0; ",
    "                          background: linear-gradient(90deg, #4A90A4 0%, #6B9BD1 100%);",
    "                          -webkit-background-clip: text;",
    "                          -webkit-text-fill-color: transparent;",
    "                          font-size: 22px;\">🔍 核心功能</h3>",
    "                <ul style=\"color: #34495E; line-height: 2.2; font-size: 15px;\">",
    "                    <li style=\"margin: 8px 0;\">✨ 静态代码分析（模式匹配、污点分析、CFG分析）</li>",
    "                    <li style=\"margin: 8px 0;\">🧪 动态行为分析（沙箱执行、网络监控、模糊测试）</li>",
    "                    <li style=\"margin: 8px 0;\">🎯 威胁识别和风险评估</li>",
    "                    <li style=\"margin: 8px 0;\">📊 详细的安全报告（JSON/HTML/Markdown）</li>",
    "                </ul>", "            </div>", "            "]

def detections : List String :=
  ["", "            <div style=\"background: linear-gradient(135deg, #FFFFFF 0%, #F0F8FF 100%); ",
    "                        padding: 25px; ", "                        border-radius: 12px; ",
    "                        margin: 10px 0; ",
    "                        border-left: 5px solid #6B9BD1;",
    "                        box-shadow: 0 4px 12px rgba(107, 157, 209, 0.15),",
    "                                    0 2px 4px rgba(107, 157, 209, 0.1);\">",
    "                <h3 style=\"color: #2C3E50; margin-top: 0;",
    "                          background: linear-gradient(90deg, #6B9BD1 0%, #5DADE2 100%);",
    "                          -webkit-background-clip: text;",
    "                          -webkit-text-fill-color: transparent;",
    "                          font-size: 22px;\">🎯 检测能力</h3>",
    "                <ul style=\"color: #34495E; line-height: 2.2; font-size: 15px;\">",
    "                    <li style=\"margin: 8px 0;\">🕷️ WebShell 检测</li>",
    "                    <li style=\"margin: 8px 0;\">💉 SQL 注入检测</li>",
    "                    <li style=\"margin: 8px 0;\">⚡ RCE（远程代码执行）检测</li>",
    "                    <li style=\"margin: 8px 0;\">🔪 命令注入检测</li>",
    "                    <li style=\"margin: 8px 0;\">🚪 后门检测</li>",
    "                    <li style=\"margin: 8px 0;\">🌐 网络数据泄露检测</li>", "                </ul>",
    "            </div>", "            "]

def instructions : List String :=
  ["", "        <div style=\"background: linear-gradient(135deg, #E8F4F8 0%, #D6E8F0 100%); ",
    "                    padding: 25px; ", "                    border-radius: 12px; ",
    "                    margin: 20px 0;", "                    border: 2px solid #B8D4E3;",
    "                    box-shadow: 0 4px 12px rgba(74, 144, 164, 0.1);\">",
    "            <h3 style=\"color: #2C3E50; margin-top: 0; ",
    "                      border-bottom: 2px solid #4A90A4; ",
    "                      padding-bottom: 10px;\">📖 使用说明</h3>",
    "            <ol style=\"color: #34495E; line-height: 2.8; font-size: 16px;\">",
    "                <li style=\"margin: 10px 0; padding-left: 10px;\">在左侧边栏上传 Python/Java/Go 源代码文件或 ZIP 压缩包</li>",
    "                <li style=\"margin: 10px 0; padding-left: 10px;\">配置分析选项（静态分析/动态分析）</li>",
    "                <li style=\"margin: 10px 0; padding-left: 10px;\">点击\"开始分析\"按钮启动分析</li>",
    "                <li style=\"margin: 10px 0; padding-left: 10px;\">查看分析结果、威胁位置高亮和下载报告</li>",
    "            </ol>", "        </div>", "        "]

def sample : List String :=
  ["", "# 您可以使用项目自带的测试文件进行测试", "# 测试文件位置：tests/malware_demo.py",
    "# 综合测试文件：tests/test_comprehensive.py", "            "]

def block (ls : List String) : String :=
  "\n".intercalate ls

def showBanner : Audit Unit :=
  markup (block banner)

def showWelcome : Audit Unit := do
  markup (block greeting)
  columns 2
  inColumn 1 (markup (block features))
  inColumn 2 (markup (block detections))
  markup (block instructions)
  folded "📝 示例：使用测试文件" do
    present .body "code" [.text (block sample)] [("language", .text "python")]

end SourceAudit.Page
